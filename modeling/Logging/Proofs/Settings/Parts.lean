import Logging.Proofs.Json.Holding
import Logging.Proofs.Json.Members
import Logging.Settings.Members

/-!
# Parts of settings are read back

* `Recovers`: a reader makes the same of every tree that holds a value.
* `parts?_object`: **an object with distinct names falls into its parts**, whatever else it holds.
* `partOr_some`, `partOr_none`, `partOr_map`: the parts that are there and those that are absent.
* `natural?_lt`: numbers that are read fit into 64 bits.
-/

namespace Logging.Settings

open Json

variable {α : Type} {read? : Tree → Option α} {v : Json} {a : α}

/-- The reader makes `a` of every tree that holds the value. -/
def Recovers (read? : Tree → Option α) (v : Json) (a : α) : Prop :=
  ∀ t : Tree, t.Holds v → read? t = some a

theorem recovers_natural (k : ℕ) : Recovers natural? (.int k) k := by
  intro t ht
  obtain ⟨n, rfl, hnumber⟩ := ht.shows
  simp [natural?, hnumber]

theorem recovers_flag (b : Bool) : Recovers flag? (.bool b) b := by
  intro t ht
  rw [show t = .bool b from ht.shows]
  rfl

theorem recovers_string (s : String) : Recovers string? (.string s) s := by
  intro t ht
  rw [show t = .string (some s) from ht.shows]
  rfl

theorem recovers_null (read? : Tree → Option α) : Recovers (optional? read?) .null none := by
  intro t ht
  rw [show t = .null from ht.shows]
  rfl

theorem Recovers.optional (h : Recovers read? v a) (hv : v ≠ .null) :
    Recovers (optional? read?) v (some a) := by
  intro t ht
  have hread := h t ht
  unfold optional?
  split
  · obtain ⟨depth, hvalue⟩ := ht
    rw [Tree.value?, Option.some.injEq] at hvalue
    exact absurd hvalue.symm hv
  · rw [hread]
    rfl

theorem recovers_optionalNat (k : Option ℕ) :
    Recovers (optional? natural?) (optionalJson k) k := by
  cases k with
  | none => exact recovers_null natural?
  | some k => exact (recovers_natural k).optional (by simp)

/-! ## Objects by their names -/

theorem all_named {trees : List (Option String × Tree)} {members : List (String × Json)}
    (h : List.Forall₂ HoldsMember trees members) :
    (trees.any fun m => m.1.isNone) = false := by
  induction h with
  | nil => rfl
  | cons hm _ ih => simp [hm.1, ih]

/-- A name that stands once in an object is found once, with its value, and any other is not
found. -/
theorem filter_named {trees : List (Option String × Tree)} {members : List (String × Json)}
    (h : List.Forall₂ HoldsMember trees members) (hnodup : (members.map Prod.fst).Nodup)
    (name : String) :
    (trees.filter fun m => m.1 = some name) = [] ∧ members.lookup name = none ∨
      ∃ t v, (trees.filter fun m => m.1 = some name) = [(some name, t)] ∧
        members.lookup name = some v ∧ t.Holds v := by
  induction h with
  | nil => exact .inl ⟨rfl, rfl⟩
  | @cons m e trees members hm _ ih =>
    obtain ⟨found, t⟩ := m
    obtain ⟨k, v⟩ := e
    obtain ⟨rfl, hholds⟩ : found = some k ∧ t.Holds v := hm
    rw [List.map_cons, List.nodup_cons] at hnodup
    by_cases hk : k = name
    · subst hk
      have hrest : members.lookup k = none :=
        List.lookup_eq_none_iff.2 fun e he => by
          have : e.1 ∈ members.map Prod.fst := List.mem_map_of_mem he
          simp only [bne_iff_ne, ne_eq]
          exact fun heq => hnodup.1 (heq ▸ this)
      rcases ih hnodup.2 with ⟨hfilter, -⟩ | ⟨t', v', -, hlookup, -⟩
      · exact .inr ⟨t, v, by simp [hfilter], by simp, hholds⟩
      · simp [hrest] at hlookup
    · have hname : ¬name = k := fun h => hk h.symm
      simpa [hk, lookup_member, hname] using ih hnodup.2

/-- **An object with distinct names falls into its parts**: those that it names hold their values,
and the others are absent. -/
theorem parts?_object {t : Tree} {members : List (String × Json)} {values : List (Option Json)}
    (h : t.Holds (.object members)) (hnodup : (members.map Prod.fst).Nodup) (names : List String)
    (hvalues : (names.map fun name => members.lookup name) = values) :
    ∃ parts, parts? names t = some parts ∧ List.Forall₂ (Option.Rel Tree.Holds) parts values := by
  obtain ⟨trees, rfl, hmembers⟩ := h.shows
  simp only [parts?, objectParts?, all_named hmembers, Bool.false_eq_true, if_false]
  induction names generalizing values with
  | nil => exact ⟨[], rfl, hvalues ▸ .nil⟩
  | cons name names ih =>
    rw [List.map_cons] at hvalues
    obtain ⟨parts, hparts, hrel⟩ := ih rfl
    rcases filter_named hmembers hnodup name with ⟨hfilter, hlookup⟩ | ⟨t, v, hfilter, hlookup, ht⟩
    · rw [hlookup] at hvalues
      exact ⟨none :: parts, by simp [List.mapM_cons, hfilter, hparts], hvalues ▸ .cons .none hrel⟩
    · rw [hlookup] at hvalues
      exact ⟨some t :: parts, by simp [List.mapM_cons, hfilter, hparts],
        hvalues ▸ .cons (.some ht) hrel⟩

section Part

variable {part : Option Tree} {fallback : α}

theorem partOr_some (h : Option.Rel Tree.Holds part (some v)) (hread : Recovers read? v a) :
    partOr read? fallback part = some a := by
  cases h with
  | some ht => exact hread _ ht

theorem partOr_none (h : Option.Rel Tree.Holds part none) :
    partOr read? fallback part = some fallback := by
  cases h
  rfl

theorem needed_some (h : Option.Rel Tree.Holds part (some v)) (hread : Recovers read? v a) :
    needed read? part = some a := by
  cases h with
  | some ht => exact hread _ ht

/-- A part that is left out where there is none is read back. -/
theorem partOr_map {toJson : α → Json} {value : Option α}
    (h : Option.Rel Tree.Holds part (value.map toJson))
    (hread : ∀ a ∈ value, Recovers read? (toJson a) a) (hnull : ∀ a, toJson a ≠ .null) :
    partOr (optional? read?) none part = some value := by
  cases value with
  | none => exact partOr_none h
  | some a => exact partOr_some h ((hread a rfl).optional (hnull a))

/-! ## What is read -/

/-- What holds of all that a reader yields, and of the fallback, holds of a part. -/
theorem of_partOr {p : α → Prop} (h : partOr read? fallback part = some a)
    (hread : ∀ t a, read? t = some a → p a) (hfallback : p fallback) : p a := by
  cases part with
  | none => exact Option.some.inj h ▸ hfallback
  | some t => exact hread t a h

end Part

/-- What holds of all that a reader yields holds of an optional value. -/
theorem of_optional {p : α → Prop} {t : Tree} {value : Option α}
    (h : optional? read? t = some value) (hread : ∀ t a, read? t = some a → p a) :
    ∀ a ∈ value, p a := by
  intro a ha
  unfold optional? at h
  split at h
  · simp only [Option.some.injEq] at h
    simp [← h] at ha
  · rw [Option.map_eq_some_iff] at h
    obtain ⟨b, hb, rfl⟩ := h
    exact Option.some.inj ha ▸ hread _ b hb

/-- Numbers that are read fit into 64 bits. -/
theorem natural?_lt {t : Tree} {k : ℕ} (h : natural? t = some k) : k < UInt64.size := by
  unfold natural? at h
  split at h
  · split at h
    · rename_i hnumber
      exact Option.some.inj h ▸ Numeral.number?_lt hnumber
    · cases h
  · cases h

end Logging.Settings
