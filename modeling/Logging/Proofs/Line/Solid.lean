import Mathlib.Data.List.Basic
import Logging.Time.Style
import Logging.Value

/-!
# Texts in one piece

* `Solid`: a text that holds no blank, no quote and no line feed.
* `Value.solid_text`: **every value is written so that is no text.**
* `Time.Style.solid_render`: **so is every instant**, in every style but those with patterns.
-/

namespace Logging

open Number Text

/-- A text that holds no blank, no quote and no line feed. -/
def Solid (s : String) : Prop := ∀ c ∈ s.toList, c ≠ ' ' ∧ c ≠ '"' ∧ c ≠ '\n'

instance (s : String) : Decidable (Solid s) :=
  List.decidableBAll (fun c : Char => c ≠ ' ' ∧ c ≠ '"' ∧ c ≠ '\n') s.toList

theorem solid_append {s t : String} : Solid (s ++ t) ↔ Solid s ∧ Solid t := by
  unfold Solid
  rw [String.toList_append, List.forall_mem_append]

theorem Solid.append {s t : String} (hs : Solid s) (ht : Solid t) : Solid (s ++ t) :=
  solid_append.2 ⟨hs, ht⟩

theorem Solid.of_subset {s : String} {cs : List Char} (h : Solid s) (hcs : cs ⊆ s.toList) :
    Solid (String.ofList cs) := by
  intro c hc
  rw [String.toList_ofList] at hc
  exact h c (hcs hc)

theorem solid_single {c : Char} (h : c ≠ ' ' ∧ c ≠ '"' ∧ c ≠ '\n') :
    Solid (String.ofList [c]) := by
  intro d hd
  rw [String.toList_ofList, List.mem_singleton] at hd
  rw [hd]
  exact h

theorem Solid.newline_notMem {s : String} (h : Solid s) : '\n' ∉ s.toList :=
  fun hc => (h _ hc).2.2 rfl

/-! ## Numbers -/

theorem solid_nat (n : ℕ) : Solid (toString n) := by
  intro c hc
  have hd : c.isDigit = true := by
    rw [Nat.toString_eq_repr, Nat.toList_repr] at hc
    exact Nat.isDigit_of_mem_toDigits (by decide) (by decide) hc
  refine ⟨?_, ?_, ?_⟩ <;> rintro rfl <;> exact absurd hd (by decide)

theorem solid_int (n : Int) : Solid (toString n) := by
  cases n with
  | ofNat n => exact solid_nat n
  | negSucc n =>
    show Solid ("-" ++ toString (n + 1))
    exact .append (by decide) (solid_nat _)

theorem solid_replicate (n : ℕ) : Solid (String.ofList (List.replicate n '0')) := by
  intro c hc
  rw [String.toList_ofList] at hc
  rw [(List.mem_replicate.1 hc).2]
  decide

theorem solid_zeroPadded (width n : ℕ) : Solid (zeroPadded width n) := by
  unfold zeroPadded pad
  dsimp only
  rw [String.ofList_append, String.ofList_toList]
  exact (solid_replicate _).append (solid_nat n)

namespace Number.Double

theorem solid_positional (d : Decimal) : Solid (positional false d) := by
  have hn := solid_nat d.digits
  unfold positional
  dsimp only
  split
  · exact (hn.append (solid_replicate _)).append (by decide)
  split
  · exact ((hn.of_subset (List.take_subset _ _)).append (by decide)).append
      (hn.of_subset (List.drop_subset _ _))
  · exact (Solid.append (by decide) (solid_replicate _)).append hn

/-- The text of a number in pairs is positional, so it has signs, digits and a point only, or is one
of two words. -/
theorem solid_text (d : Double) : Solid (d.text .plain) := by
  have hsign : Solid (if d.negative then "-" else "") := by split <;> decide
  unfold text
  dsimp only
  split
  · decide
  split
  · exact hsign.append (by decide)
  split
  · exact hsign.append (by decide)
  · exact hsign.append (solid_positional _)

end Number.Double

/-- Whatever is no text is written in one piece. -/
theorem Value.solid_text {v : Value} (h : ∀ s, v ≠ .string s) : Solid v.text := by
  cases v with
  | string s => exact absurd rfl (h s)
  | int n => exact solid_int _
  | float d => exact d.solid_text
  | bool b => cases b <;> decide
  | null => decide

/-! ## Instants -/

namespace Time

/-- A character above those of punctuation, or none at all. -/
theorem solid_ofNat {k : ℕ} (h : 48 ≤ k) :
    Char.ofNat k ≠ ' ' ∧ Char.ofNat k ≠ '"' ∧ Char.ofNat k ≠ '\n' := by
  have hne : ∀ c : Char, 0 < c.toNat → c.toNat < 48 → Char.ofNat k ≠ c := by
    rintro c hpos hlt rfl
    by_cases hk : k.isValidChar
    · have hval : (Char.ofNat k).toNat = k := by
        rw [Char.ofNat, dif_pos hk]
        rfl
      omega
    · have hval : (Char.ofNat k).toNat = 0 := by
        rw [Char.ofNat, dif_neg hk]
        rfl
      omega
  exact ⟨hne _ (by decide) (by decide), hne _ (by decide) (by decide),
    hne _ (by decide) (by decide)⟩

/-- Tens and ones are one character each. -/
theorem twoPlaces_zero (n : ℕ) : twoPlaces n .zero =
    String.ofList [Char.ofNat (48 + n / 10), Char.ofNat (48 + n % 10)] := by
  unfold twoPlaces
  cases n / 10 <;> rfl

theorem solid_twoPlaces (n : ℕ) : Solid (twoPlaces n .zero) := by
  rw [twoPlaces_zero]
  intro c hc
  rw [String.toList_ofList] at hc
  simp only [List.mem_cons, List.not_mem_nil, or_false] at hc
  rcases hc with rfl | rfl
  · exact solid_ofNat (by omega)
  · exact solid_ofNat (by omega)

theorem solid_yearPlaces (y : Int) : Solid (yearPlaces y .zero) := by
  unfold yearPlaces places
  dsimp only
  split
  · refine Solid.append ?_ (solid_zeroPadded _ _)
    split <;> decide
  · refine Solid.append ?_ (solid_zeroPadded _ _)
    split <;> decide

namespace Instant

theorem solid_yearText (y : Int) : Solid (yearText y) := by
  unfold yearText
  split
  · exact solid_zeroPadded _ _
  · refine Solid.append ?_ (solid_zeroPadded _ _)
    split <;> decide

theorem solid_decimals (n : ℕ) : Solid (decimals n) := by
  unfold decimals
  split
  · decide
  split
  · exact .append (by decide) (solid_zeroPadded _ _)
  split
  · exact .append (by decide) (solid_zeroPadded _ _)
  · exact .append (by decide) (solid_zeroPadded _ _)

theorem solid_rfc3339 (t : Instant) {zone : String} (hz : Solid zone) : Solid (t.rfc3339 zone) := by
  unfold rfc3339
  dsimp only
  simp only [solid_append, solid_yearText, solid_zeroPadded, solid_decimals, hz, true_and, and_true]
  decide

end Instant

/-- Items that are written in one piece stand together in one piece. -/
theorem solid_renderItems {t : Instant} {zone : Zone} : ∀ {is : List Item},
    (∀ i ∈ is, ∃ s, i.render? t zone = some s ∧ Solid s) →
      ∃ s, renderItems? t zone is = some s ∧ Solid s := by
  intro is
  induction is with
  | nil => intro _; exact ⟨"", rfl, by decide⟩
  | cons i is ih =>
    intro h
    obtain ⟨s, hs, hsolid⟩ := h i List.mem_cons_self
    obtain ⟨u, hu, husolid⟩ := ih fun i hi => h i (List.mem_cons_of_mem _ hi)
    exact ⟨s ++ u, by simp [renderItems?, hs, hu], hsolid.append husolid⟩

namespace Style

/-- The items of the pattern of ISO 8601. -/
theorem items?_isoPattern (micros : Bool) : items? (isoPattern micros).toList =
    some [.zero .year, .literal '-', .zero .month, .literal '-', .zero .day, .literal 'T',
      .zero .hour, .literal ':', .zero .minute, .literal ':', .zero .second,
      .text (if micros then .decimals6 else .decimals3), .literal 'Z'] := by
  cases micros <;> decide

theorem solid_iso (micros : Bool) (t : Instant) : Solid (iso micros t) := by
  have hdecimals : ∃ s, textText? t .utc (if micros then .decimals6 else .decimals3) = some s ∧
      Solid s := by
    cases micros
    · exact ⟨_, rfl, .append (by decide) (solid_zeroPadded _ _)⟩
    · exact ⟨_, rfl, .append (by decide) (solid_zeroPadded _ _)⟩
  have hitems : ∀ i ∈ [Item.zero .year, .literal '-', .zero .month, .literal '-', .zero .day,
      .literal 'T', .zero .hour, .literal ':', .zero .minute, .literal ':', .zero .second,
      .text (if micros then .decimals6 else .decimals3), .literal 'Z'],
      ∃ s, i.render? t .utc = some s ∧ Solid s := by
    simp only [List.forall_mem_cons, List.not_mem_nil, false_implies, implies_true, and_true,
      Item.zero, Item.render?, numberText, Option.some.injEq, exists_eq_left', solid_yearPlaces,
      solid_twoPlaces, true_and]
    exact ⟨solid_single (by decide), solid_single (by decide), solid_single (by decide),
      solid_single (by decide), solid_single (by decide), hdecimals, solid_single (by decide)⟩
  obtain ⟨s, hs, hsolid⟩ := solid_renderItems hitems
  have hiso : iso micros t = s := by
    unfold iso format?
    rw [items?_isoPattern]
    show (renderItems? t .utc _).getD "" = s
    rw [hs]
    rfl
  rw [hiso]
  exact hsolid

/-- **Every instant is written in one piece**, in every style but those with patterns. -/
theorem solid_render {s : Style} (hs : ∀ p, s ≠ .custom p) (t : Instant) : Solid (s.render t) := by
  cases s with
  | iso8601 => exact solid_iso false t
  | iso8601Micros => exact solid_iso true t
  | rfc3339 => exact t.solid_rfc3339 (by decide)
  | unixMillis => exact solid_int _
  | custom p => exact absurd rfl (hs p)

end Style

end Time

end Logging
