import Logging.Proofs.Json.Reading

/-!
# Trees from their values

* `Tree.Holds`: a tree has a value, at some depth.
* `Tree.Shows`, `Tree.Holds.shows`: what a tree with a given value looks like.
* `parse?_render`: **the compact text of a value has a tree, and the tree holds this value.**
* `Numeral.number?_lt`: a number that stays an integer fits into 64 bits.
-/

namespace Logging.Json

/-- A tree has this value, if it may nest deeply enough. -/
def Tree.Holds (t : Tree) (v : Json) : Prop := ∃ depth, t.value? depth = some v

/-- A member has this name and holds this value. -/
def HoldsMember (m : Option String × Tree) (e : String × Json) : Prop :=
  m.1 = some e.1 ∧ m.2.Holds e.2

variable {t : Tree}

theorem members?_holds {depth : ℕ} {trees : List (Option String × Tree)}
    {members : List (String × Json)} (h : Tree.members? depth trees = some members) :
    List.Forall₂ HoldsMember trees members := by
  induction trees generalizing members with
  | nil =>
    rw [Tree.members?, Option.some.injEq] at h
    exact h ▸ .nil
  | cons m trees ih =>
    obtain ⟨name, t⟩ := m
    simp only [Tree.members?, Option.bind_eq_bind, Option.bind_eq_some_iff,
      Option.some.injEq] at h
    obtain ⟨k, hname, v, hvalue, vs, hrest, rfl⟩ := h
    exact .cons ⟨hname, depth, hvalue⟩ (ih hrest)

/-- What a tree is, by its value. -/
def Tree.Shows (t : Tree) : Json → Prop
  | .null => t = .null
  | .bool b => t = .bool b
  | .int i => ∃ n, t = .number n ∧ n.number? = some (.int i)
  | .float d => ∃ n, t = .number n ∧ n.number? = some (.float d)
  | .string s => t = .string (some s)
  | .array items => ∃ trees depth, t = .array trees ∧ Tree.values? depth trees = some items
  | .object members => ∃ trees, t = .object trees ∧ List.Forall₂ HoldsMember trees members

theorem Tree.Holds.shows {v : Json} (h : t.Holds v) : t.Shows v := by
  obtain ⟨depth, h⟩ := h
  cases t with
  | null =>
    simp only [value?, Option.some.injEq] at h
    subst h
    rfl
  | bool b =>
    simp only [value?, Option.some.injEq] at h
    subst h
    rfl
  | number n =>
    rw [value?, Option.map_eq_some_iff] at h
    obtain ⟨i | d, hnumber, rfl⟩ := h
    · exact ⟨n, rfl, hnumber⟩
    · exact ⟨n, rfl, hnumber⟩
  | string text =>
    rw [value?, Option.map_eq_some_iff] at h
    obtain ⟨s, rfl, rfl⟩ := h
    rfl
  | array trees =>
    cases depth with
    | zero => simp [value?] at h
    | succ depth =>
      rw [value?, Option.map_eq_some_iff] at h
      obtain ⟨items, hitems, rfl⟩ := h
      exact ⟨trees, depth, rfl, hitems⟩
  | object trees =>
    cases depth with
    | zero => simp [value?] at h
    | succ depth =>
      rw [value?, Option.map_eq_some_iff] at h
      obtain ⟨members, hmembers, rfl⟩ := h
      exact ⟨trees, rfl, members?_holds hmembers⟩

/-- **The compact text of a value has a tree, and the tree holds this value.** -/
theorem parse?_render {v : Json} (h : v.Readable nestingLimit) :
    ∃ t, Tree.parse? v.render = some t ∧ t.Holds v := by
  have hread := read?_render h
  rw [read?, Option.bind_eq_some_iff] at hread
  obtain ⟨t, hparse, hvalue⟩ := hread
  exact ⟨t, hparse, _, hvalue⟩

/-! ## Numbers of 64 bits -/

/-- The digits that are used always fit. -/
theorem takeSignificand_lt (ds : List ℕ) {start : ℕ × ℕ × Bool} (h : start.1 < UInt64.size) :
    (ds.foldl takeSignificand start).1 < UInt64.size := by
  induction ds generalizing start with
  | nil => exact h
  | cons d ds ih =>
    refine ih ?_
    unfold takeSignificand
    dsimp only
    split
    · rename_i hfits
      exact hfits.2
    · exact h

/-- A number without sign that stays an integer fits into 64 bits. -/
theorem Numeral.number?_lt {n : Numeral} {k : ℕ} (h : n.number? = some (.int k)) :
    k < UInt64.size := by
  have hzero : (0, 0, Bool.true).1 < UInt64.size := by decide
  have hfits := takeSignificand_lt n.whole hzero
  unfold Numeral.number? at h
  revert h hfits
  generalize n.whole.foldl takeSignificand (0, 0, Bool.true) = taken
  obtain ⟨significand, left, fits⟩ := taken
  intro h hfits
  dsimp only at h hfits
  split at h
  · split at h
    · simp at h
    split at h
    · simp at h
      omega
    split at h
    · simp at h
      omega
    · simp at h
  · simp at h
  · split at h
    · split at h <;> simp at h
    · simp at h

end Logging.Json
