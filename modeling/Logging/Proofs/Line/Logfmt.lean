import Mathlib.Data.List.Forall2
import Logging.Proofs.Line.Scanning
import Logging.Proofs.Line.Solid

/-!
# What lines of key-value pairs say

* `Unbroken`: a text that holds no blank and no quote, as every value does that is no text.
* `logfmtLine_reads_back`: **a line is read as the pairs of the record**, in order, whatever its
  texts hold.
* `record_keys_in_line`: the keys of the record's own parts stand for these parts, and for those
  fields whose names hide such a key.
-/

namespace Logging

/-- A text that holds no blank and no quote. -/
def Unbroken (s : String) : Prop := ∀ c ∈ s.toList, c ≠ ' ' ∧ c ≠ '"'

instance (s : String) : Decidable (Unbroken s) :=
  List.decidableBAll (fun c : Char => c ≠ ' ' ∧ c ≠ '"') s.toList

theorem Solid.unbroken {s : String} (h : Solid s) : Unbroken s :=
  fun c hc => ⟨(h c hc).1, (h c hc).2.1⟩

theorem Unbroken.spells {s : String} (h : Unbroken s) : Line.Spells s s :=
  Line.spells_self (fun hc => (h _ hc).1 rfl) fun hc => (h _ (List.mem_of_mem_head? hc)).2 rfl

namespace Line

theorem spells_pairValue (v : Value) : Spells (pairValue v) v.text := by
  cases v with
  | string s => exact spells_bareOrQuoted s
  | _ => exact (Value.solid_text (by simp)).unbroken.spells

theorem notMem_plainKey (key : String) : '=' ∉ (plainKey key).toList := by
  intro h
  have : isKeyChar '=' = true := by
    simpa [plainKey] using (List.mem_filter.1 (by simpa [plainKey] using h)).2
  exact absurd this (by decide)

/-- The record's own parts, as they are read. -/
def ownTexts (style : Time.Style) (r : Record) : List (String × String) :=
  (r.timestamp.map fun t => ("timestamp", style.render t)).toList ++
    [("level", r.level.name), ("message", r.message)]

/-- The fields, as they are read. -/
def fieldTexts (r : Record) : List (String × String) :=
  r.fields.entries.map fun e => (plainKey (outputKey e.1), e.2.text)

/-- The keys of the record's own parts hold no equals sign. -/
theorem notMem_recordKeys {key : String} (h : key ∈ recordKeys) : '=' ∉ key.toList := by
  simp only [recordKeys, List.mem_cons, List.not_mem_nil, or_false] at h
  rcases h with rfl | rfl | rfl <;> decide

/-- Every pair of a record is read as the text that it was written for. -/
theorem pairs_spelled (style : Time.Style) (r : Record) :
    List.Forall₂ Spelled (pairs style r) (ownTexts style r ++ fieldTexts r) := by
  have hlevel : Unbroken r.level.name := by cases r.level <;> decide
  have hown : List.Forall₂ Spelled [("level", r.level.name), ("message", quote r.message)]
      [("level", r.level.name), ("message", r.message)] :=
    .cons ⟨notMem_recordKeys (by simp [recordKeys]), rfl, hlevel.spells⟩
      (.cons ⟨notMem_recordKeys (by simp [recordKeys]), rfl, spells_quote _⟩ .nil)
  have hfields : List.Forall₂ Spelled
      (r.fields.entries.map fun e => (plainKey (outputKey e.1), pairValue e.2)) (fieldTexts r) := by
    unfold fieldTexts
    induction r.fields.entries with
    | nil => exact .nil
    | cons e es ih => exact .cons ⟨notMem_plainKey _, rfl, spells_pairValue _⟩ ih
  unfold pairs ownTexts
  cases r.timestamp with
  | none => exact List.rel_append hown hfields
  | some t =>
    exact .cons ⟨notMem_recordKeys (by simp [recordKeys]), rfl, spells_bareOrQuoted _⟩
      (List.rel_append hown hfields)

/-- The line without its line feed. -/
def logfmtBody (style : Time.Style) (r : Record) : String :=
  " ".intercalate ((pairs style r).map fun p => p.1 ++ "=" ++ p.2)

theorem scan?_logfmtBody (style : Time.Style) (r : Record) :
    scan? (logfmtBody style r).toList = some (ownTexts style r ++ fieldTexts r) := by
  refine scan?_intercalate (pairs_spelled style r) fun h => ?_
  have := (pairs_spelled style r).length_eq
  simp [h, ownTexts] at this

/-- **Lines are read back.** The line of a record, without its line feed, is read as the timestamp if
there is one, the level, the message and the fields, in this order and with their texts unchanged. -/
theorem logfmtLine_reads_back (style : Time.Style) (r : Record) :
    ∃ body, logfmtLine style r = body ++ "\n" ∧
      scan? body.toList = some (ownTexts style r ++ fieldTexts r) :=
  ⟨logfmtBody style r, rfl, scan?_logfmtBody style r⟩

/-! ## Keys of the record -/

/-- A field's name that is none of the record's keys, and becomes one when the characters that keys
do not keep are left out. -/
def Disguised (key : String) : Prop := key ∉ recordKeys ∧ plainKey key ∈ recordKeys

instance (key : String) : Decidable (Disguised key) :=
  inferInstanceAs (Decidable (key ∉ recordKeys ∧ plainKey key ∈ recordKeys))

/-- The qualifier is kept in a key, so that no qualified name is one of the record's. -/
theorem plainKey_outputKey {key : String} :
    plainKey (outputKey key) ∈ recordKeys ↔ Disguised key := by
  unfold outputKey Disguised
  split
  · rename_i h
    have hout : ∀ k ∈ recordKeys, plainKey ("fields." ++ k) ∉ recordKeys := by decide
    simp [h, hout key h]
  · rename_i h
    simp [h]

/-- A field with a disguised name is written under the key that the name hides. -/
theorem outputKey_of_disguised {key : String} (h : Disguised key) : outputKey key = key :=
  if_neg h.1

/-- **Whose keys are the record's.** The keys under which a line holds the record's own parts stand
for these parts, and else for the fields with disguised names alone. -/
theorem record_keys_in_line (style : Time.Style) (r : Record) :
    ∃ body texts, logfmtLine style r = body ++ "\n" ∧ scan? body.toList = some texts ∧
      texts.filter (·.1 ∈ recordKeys) = ownTexts style r ++
        ((r.fields.entries.filter (Disguised ·.1)).map fun e => (plainKey e.1, e.2.text)) := by
  refine ⟨logfmtBody style r, _, rfl, scan?_logfmtBody style r, ?_⟩
  have hown : ∀ e ∈ ownTexts style r, decide (e.1 ∈ recordKeys) = true := by
    intro e he
    simp only [ownTexts, List.mem_append, Option.mem_toList, Option.map_eq_some_iff,
      List.mem_cons, List.not_mem_nil, or_false] at he
    rcases he with ⟨t, -, rfl⟩ | rfl | rfl <;> simp [recordKeys]
  have hfields : (fieldTexts r).filter (·.1 ∈ recordKeys) =
      (r.fields.entries.filter (Disguised ·.1)).map fun e => (plainKey e.1, e.2.text) := by
    rw [fieldTexts, List.filter_map]
    have hdisguised : ((fun q : String × String => decide (q.1 ∈ recordKeys)) ∘
        fun e : String × Value => (plainKey (outputKey e.1), e.2.text)) =
          fun e => decide (Disguised e.1) := by
      funext e
      simp only [Function.comp_apply, plainKey_outputKey]
    rw [hdisguised]
    refine List.map_congr_left fun e he => ?_
    rw [outputKey_of_disguised (by simpa using (List.mem_filter.1 he).2)]
  rw [List.filter_append, List.filter_eq_self.2 hown, hfields]

/-- A blank in a field's name is left out only after the name was compared with the record's keys:
the line gives a second level. -/
theorem field_written_as_level :
    ∃ r : Record, r.fields.entries = [("le vel", .string "FATAL")] ∧
      logfmtLine .iso8601 r = "level=INFO message=\"m\" level=FATAL\n" ∧
      scan? "level=INFO message=\"m\" level=FATAL".toList =
        some [("level", "INFO"), ("message", "m"), ("level", "FATAL")] := by
  refine ⟨(Record.new .info "m").withField "le vel" (.string "FATAL"), by decide, by decide, ?_⟩
  exact scan?_logfmtBody .iso8601 ((Record.new .info "m").withField "le vel" (.string "FATAL"))

end Line

end Logging
