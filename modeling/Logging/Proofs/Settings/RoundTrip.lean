import Logging.Level
import Logging.Proofs.Settings.Parts
import Logging.Settings.SinkSpec
import Logging.Time.Style

/-!
# Configurations survive being written and read

* `Form`: how the values of a type stand in configurations.
* `Form.Survives`: what is written is read back, and writing what was read changes it at most once.
* `Form.Sound.survives`: what it takes.
* `settings_survive`: **settings of buffers, of rotating files and of sinks, styles of timestamps and
  levels survive.**
-/

namespace Logging.Settings

open Json

variable {α : Type}

/-- How the values of a type stand in configurations. -/
structure Form (α : Type) where
  ofTree? : Tree → Option α
  toJson : α → Json
  /-- The values whose numbers have 64 bits. -/
  Fits : α → Prop

namespace Form

variable (f : Form α)

/-- The value that a text is accepted as. -/
def read? (text : String) : Option α := (Tree.parse? text).bind f.ofTree?

/-- The text of a value. -/
def write (a : α) : String := (f.toJson a).render

/-- A text that is accepted, written anew. -/
def rewrite? (text : String) : Option String := (f.read? text).map f.write

/-- Values survive being written and read. -/
structure Survives : Prop where
  /-- The text of a value is accepted, as this value. -/
  read_write : ∀ a, f.Fits a → f.read? (f.write a) = some a
  /-- A text that is accepted and written anew is accepted again, and stays as it is from then
  on. -/
  rewrite_rewrite : ∀ text text', f.rewrite? text = some text' → f.rewrite? text' = some text'

/-- What it takes for values to survive. -/
structure Sound : Prop where
  readable : ∀ a, f.Fits a → (f.toJson a).Readable nestingLimit
  recovers : ∀ a, Recovers f.ofTree? (f.toJson a) a
  fits : ∀ t a, f.ofTree? t = some a → f.Fits a

variable {f}

theorem Sound.survives (h : f.Sound) : f.Survives := by
  have hread : ∀ a, f.Fits a → f.read? (f.write a) = some a := by
    intro a ha
    obtain ⟨t, hparse, hholds⟩ := parse?_render (h.readable a ha)
    rw [read?, write, hparse]
    exact h.recovers a t hholds
  refine ⟨hread, fun text text' htext => ?_⟩
  obtain ⟨a, ha, rfl⟩ := Option.map_eq_some_iff.1 htext
  obtain ⟨t, -, ht⟩ := Option.bind_eq_some_iff.1 ha
  rw [rewrite?, hread a (h.fits t a ht)]
  rfl

end Form

theorem readable_nat {k : ℕ} (depth : ℕ) (h : k < UInt64.size) : (Json.int k).Readable depth :=
  .int depth (by omega) (by
    rw [show UInt64.size = 0x10000000000000000 from rfl] at h
    omega)

theorem readable_optionalNat {k : Option ℕ} (depth : ℕ) (h : ∀ n ∈ k, n < UInt64.size) :
    (optionalJson k).Readable depth := by
  cases k with
  | none => exact .null depth
  | some n => exact readable_nat depth (h n rfl)

/-! ## Buffers -/

namespace Buffering

/-- Both settings have 64 bits. -/
structure Fits (b : Buffering) : Prop where
  threshold : b.threshold < UInt64.size
  intervalMillis : b.intervalMillis < UInt64.size

def form : Form Buffering := ⟨ofTree?, toJson, Fits⟩

theorem readable {b : Buffering} (h : b.Fits) (depth : ℕ) : b.toJson.Readable (depth + 1) := by
  refine .object fun e he => ?_
  simp only [List.mem_cons, List.not_mem_nil, or_false] at he
  rcases he with rfl | rfl
  · exact readable_nat depth h.threshold
  · exact readable_nat depth h.intervalMillis

theorem recovers (b : Buffering) : Recovers ofTree? b.toJson b := by
  intro t ht
  obtain ⟨parts, hparts, hrel⟩ := parts?_object ht (by simp) names rfl
  obtain _ | ⟨hthreshold, _ | ⟨hinterval, _ | _⟩⟩ := hrel
  simp [ofTree?, hparts, partOr_some hthreshold (recovers_natural _),
    partOr_some hinterval (recovers_natural _)]

theorem fits {t : Tree} {b : Buffering} (h : ofTree? t = some b) : b.Fits := by
  unfold ofTree? at h
  rw [Option.bind_eq_bind, Option.bind_eq_some_iff] at h
  obtain ⟨parts, -, h⟩ := h
  split at h
  · simp only [Option.bind_eq_bind, Option.bind_eq_some_iff, Option.some.injEq] at h
    obtain ⟨threshold, hthreshold, interval, hinterval, rfl⟩ := h
    exact ⟨of_partOr (p := (· < UInt64.size)) hthreshold (fun _ _ => natural?_lt) (by decide),
      of_partOr (p := (· < UInt64.size)) hinterval (fun _ _ => natural?_lt) (by decide)⟩
  · cases h

theorem form_sound : form.Sound :=
  ⟨fun _ h => readable h 126, recovers, fun _ _ => fits⟩

end Buffering

/-! ## Rotating files -/

namespace Rotation

/-- All limits have 64 bits. -/
structure Fits (r : Rotation) : Prop where
  maxBytes : ∀ k ∈ r.maxBytes, k < UInt64.size
  maxAgeSeconds : ∀ k ∈ r.maxAgeSeconds, k < UInt64.size
  maxBackups : ∀ k ∈ r.maxBackups, k < UInt64.size

def form : Form Rotation := ⟨ofTree?, toJson, Fits⟩

theorem readable {r : Rotation} (h : r.Fits) (depth : ℕ) : r.toJson.Readable (depth + 1) := by
  refine .object fun e he => ?_
  simp only [List.mem_cons, List.not_mem_nil, or_false] at he
  rcases he with rfl | rfl | rfl | rfl | rfl
  · exact .string depth _
  · exact readable_optionalNat depth h.maxBytes
  · exact readable_optionalNat depth h.maxAgeSeconds
  · exact readable_optionalNat depth h.maxBackups
  · exact .bool depth _

/-- A limit that is not set is written as null: left out, it would come back as the default. -/
theorem recovers (r : Rotation) : Recovers ofTree? r.toJson r := by
  intro t ht
  obtain ⟨parts, hparts, hrel⟩ := parts?_object ht (by simp) names rfl
  obtain _ | ⟨htemplate, _ | ⟨hbytes, _ | ⟨hage, _ | ⟨hbackups, _ | ⟨hcompress, _ | _⟩⟩⟩⟩⟩ := hrel
  simp [ofTree?, hparts, partOr_some htemplate (recovers_string _),
    partOr_some hbytes (recovers_optionalNat _), partOr_some hage (recovers_optionalNat _),
    partOr_some hbackups (recovers_optionalNat _), partOr_some hcompress (recovers_flag _)]

theorem fits {t : Tree} {r : Rotation} (h : ofTree? t = some r) : r.Fits := by
  have hlimit : ∀ t k, optional? natural? t = some k → ∀ n ∈ k, n < UInt64.size :=
    fun t k hk => of_optional hk fun _ _ => natural?_lt
  unfold ofTree? at h
  rw [Option.bind_eq_bind, Option.bind_eq_some_iff] at h
  obtain ⟨parts, -, h⟩ := h
  split at h
  · simp only [Option.bind_eq_bind, Option.bind_eq_some_iff, Option.some.injEq] at h
    obtain ⟨_, -, maxBytes, hbytes, maxAge, hage, maxBackups, hbackups, _, -, rfl⟩ := h
    exact ⟨of_partOr hbytes hlimit (by decide), of_partOr hage hlimit (by decide),
      of_partOr hbackups hlimit (by decide)⟩
  · cases h

theorem form_sound : form.Sound :=
  ⟨fun _ h => readable h 126, recovers, fun _ _ => fits⟩

end Rotation

/-! ## Sinks -/

namespace SinkSpec

/-- All numbers in a description have 64 bits. -/
structure Fits (s : SinkSpec) : Prop where
  rotation : ∀ r ∈ s.rotation, r.Fits
  buffer : ∀ b ∈ s.buffer, b.Fits
  asyncCapacity : ∀ k ∈ s.asyncCapacity, k < UInt64.size

def form : Form SinkSpec := ⟨ofTree?, toJson, Fits⟩

section Member

variable {name : String} {toJson : α → Json} {value : Option α}

theorem mem_member {e : String × Json} (h : e ∈ member name toJson value) :
    ∃ a ∈ value, e.2 = toJson a := by
  cases value with
  | none => cases h
  | some a =>
    rw [member, List.mem_singleton] at h
    exact ⟨a, rfl, h ▸ rfl⟩

theorem keys_member : ((member name toJson value).map Prod.fst).Sublist [name] := by
  cases value <;> simp [member]

theorem lookup_optional (k : String) :
    (member name toJson value).lookup k = if k = name then value.map toJson else none := by
  cases value with
  | none => simp [member]
  | some a =>
    rw [member, lookup_member]
    rfl

end Member

theorem readable {s : SinkSpec} (h : s.Fits) (depth : ℕ) : s.toJson.Readable (depth + 2) := by
  refine .object fun e he => ?_
  simp only [members, List.mem_append] at he
  rcases he with (((he | he) | he) | he) | he
  · rw [List.mem_singleton.1 he]
    exact .string _ _
  · obtain ⟨path, -, hpath⟩ := mem_member he
    exact hpath ▸ .string _ _
  · obtain ⟨r, hr, hrotation⟩ := mem_member he
    exact hrotation ▸ Rotation.readable (h.rotation r hr) depth
  · obtain ⟨b, hb, hbuffer⟩ := mem_member he
    exact hbuffer ▸ Buffering.readable (h.buffer b hb) depth
  · obtain ⟨k, hk, hcapacity⟩ := mem_member he
    exact hcapacity ▸ readable_nat _ (h.asyncCapacity k hk)

theorem keys_members (s : SinkSpec) : (s.members.map Prod.fst).Sublist names := by
  simp only [members, List.map_append]
  exact ((((List.Sublist.refl _).append keys_member).append keys_member).append keys_member).append
    keys_member

/-- Under each name stands the part of that name, if there is one. -/
theorem lookup_members (s : SinkSpec) :
    (names.map fun name => s.members.lookup name) =
      [some (.string s.kind), s.path.map .string, s.rotation.map Rotation.toJson,
        s.buffer.map Buffering.toJson, s.asyncCapacity.map fun n : ℕ => .int n] := by
  simp [names, members, List.lookup_append, lookup_optional, lookup_member]

/-- What is absent is left out, and comes back as absent. -/
theorem recovers (s : SinkSpec) : Recovers ofTree? s.toJson s := by
  intro t ht
  obtain ⟨parts, hparts, hrel⟩ :=
    parts?_object ht ((keys_members s).nodup (by decide)) names (lookup_members s)
  obtain _ | ⟨hkind, _ | ⟨hpath, _ | ⟨hrotation, _ | ⟨hbuffer, _ | ⟨hcapacity, _ | _⟩⟩⟩⟩⟩ := hrel
  simp [ofTree?, hparts, needed_some hkind (recovers_string _),
    partOr_map hpath (fun _ _ => recovers_string _) (by simp),
    partOr_map hrotation (fun r _ => r.recovers) (by simp [Rotation.toJson]),
    partOr_map hbuffer (fun b _ => b.recovers) (by simp [Buffering.toJson]),
    partOr_map hcapacity (fun _ _ => recovers_natural _) (by simp)]

theorem fits {t : Tree} {s : SinkSpec} (h : ofTree? t = some s) : s.Fits := by
  unfold ofTree? at h
  rw [Option.bind_eq_bind, Option.bind_eq_some_iff] at h
  obtain ⟨parts, -, h⟩ := h
  split at h
  · simp only [Option.bind_eq_bind, Option.bind_eq_some_iff, Option.some.injEq] at h
    obtain ⟨_, -, _, -, rotation, hrotation, buffer, hbuffer, capacity, hcapacity, rfl⟩ := h
    exact
      { rotation := of_partOr hrotation
          (fun _ _ ht => of_optional ht fun _ _ => Rotation.fits) (by simp)
        buffer := of_partOr hbuffer (fun _ _ ht => of_optional ht fun _ _ => Buffering.fits) (by simp)
        asyncCapacity := of_partOr hcapacity
          (fun _ _ ht => of_optional ht fun _ _ => natural?_lt) (by simp) }
  · cases h

theorem form_sound : form.Sound :=
  ⟨fun _ h => readable h 125, recovers, fun _ _ => fits⟩

end SinkSpec

/-! ## Styles and levels -/

theorem object_single {t : Tree} {k : String} {v : Json} (h : t.Holds (.object [(k, v)])) :
    ∃ t', t = .object [(some k, t')] ∧ t'.Holds v := by
  obtain ⟨trees, rfl, hmembers⟩ := h.shows
  cases hmembers with
  | @cons m _ _ _ hm hrest =>
    cases hrest
    obtain ⟨name, t'⟩ := m
    obtain ⟨rfl, hholds⟩ : name = some k ∧ t'.Holds v := hm
    exact ⟨t', rfl, hholds⟩

def styleForm : Form Time.Style := ⟨Time.Style.ofTree?, Time.Style.toJson, fun _ => True⟩

def levelForm : Form Level := ⟨Level.ofTree?, Level.toJson, fun _ => True⟩

theorem styleForm_sound : styleForm.Sound := by
  refine ⟨fun style _ => ?_, fun style t ht => ?_, fun _ _ _ => trivial⟩
  · cases style with
    | custom pattern =>
      have hobject : (Json.object [("Custom", .string pattern)]).Readable (126 + 1) :=
        .object fun e he => List.mem_singleton.1 he ▸ .string _ _
      exact hobject
    | _ => exact .string _ _
  · cases style with
    | custom pattern =>
      obtain ⟨t', rfl, ht'⟩ := object_single ht
      obtain rfl : t' = .string (some pattern) := ht'.shows
      rfl
    | _ =>
      obtain rfl := ht.shows
      rfl

theorem levelForm_sound : levelForm.Sound := by
  refine ⟨fun level _ => .string _ _, fun level t ht => ?_, fun _ _ _ => trivial⟩
  obtain rfl : t = .string (some level.keyword) := ht.shows
  cases level <;> rfl

/-- **Configurations survive being written and read**: what is written of settings of a buffer, of a
rotating file or of a sink, of a style of timestamps or of a level is read back as it was, and a text
that is accepted and written anew stays as it is from then on. -/
theorem settings_survive :
    Buffering.form.Survives ∧ Rotation.form.Survives ∧ SinkSpec.form.Survives ∧
      styleForm.Survives ∧ levelForm.Survives :=
  ⟨Buffering.form_sound.survives, Rotation.form_sound.survives, SinkSpec.form_sound.survives,
    styleForm_sound.survives, levelForm_sound.survives⟩

/-- A rotating file without any limit, behind a buffer that is as large as can be said. -/
def unlimited : SinkSpec where
  kind := "rotating"
  rotation := some { template := "a\"b\n.log", maxBytes := none }
  buffer := some ⟨18446744073709551615, 1⟩

theorem settings_survive_unlimited :
    let shown := "\x7b\"kind\":\"rotating\",\"rotation\":\x7b\"path_template\":\"a\\\"b\\n.log\"," ++
      "\"max_bytes\":null,\"max_age_secs\":null,\"max_backups\":null,\"compress\":false\x7d," ++
      "\"buffer\":\x7b\"threshold_bytes\":18446744073709551615,\"flush_interval_ms\":1\x7d\x7d"
    let long := "[\"console\", null, null, [7]]"
    let short := "\x7b\"kind\":\"console\",\"buffer\":\x7b\"threshold_bytes\":7," ++
      "\"flush_interval_ms\":1000\x7d\x7d"
    unlimited.Fits ∧ SinkSpec.form.write unlimited = shown ∧
      SinkSpec.form.read? (SinkSpec.form.write unlimited) = some unlimited ∧
      SinkSpec.form.rewrite? long = some short ∧ SinkSpec.form.rewrite? short = some short := by
  intro shown long short
  have hfits : unlimited.Fits := by
    refine ⟨fun r hr => ?_, fun b hb => ?_, by simp [unlimited]⟩
    · obtain rfl := Option.some.inj hr
      exact ⟨by simp, by simp, by simp⟩
    · obtain rfl := Option.some.inj hb
      exact ⟨by decide, by decide⟩
  have hshort : SinkSpec.form.rewrite? long = some short := by decide +kernel
  exact ⟨hfits, by decide +kernel, settings_survive.2.2.1.read_write unlimited hfits, hshort,
    settings_survive.2.2.1.rewrite_rewrite long short hshort⟩

end Logging.Settings
