import Mathlib.Data.List.Basic
import Logging.Disk.Path
import Logging.Proofs.Time.Calendar
import Logging.Time.Pattern

/-!
# What a template gives at different times

A template of file names is filled in with the time, so that the names differ. What the time puts in
are numbers, names of days and months, and signs. None of them has a slash or the letter `z` in it:
these stand in a name because they stand in the template.

* `Time.Date.ordinal_le`, `Time.Date.weekFrom_lt`: the parts of a date are small numbers.
* `Time.render?_bare`: **what is put in for the time has no slash and no `z`.**
* `Time.fill?_marks`: **at all times a template gives the same slashes and the same `z`s**, if it
  gives anything.
* `Disk.Path.marks_ofText`: so the last piece of the path has the same number of `z`s at all times.
-/

namespace Logging.Time

open Text

/-! ## The numbers of a date -/

namespace Date

/-- The place of a day in its year is a small number. -/
theorem ordinal_le {d : Date} (hm : d.month ≤ 12) (hd : d.day ≤ 31) : d.ordinal ≤ 1000 := by
  have hdiv : ∀ x : Int, x.fdiv 400 = x / 400 := fun x => Int.fdiv_eq_ediv_of_nonneg x (by decide)
  have hmod : ∀ x : Int, x.fmod 400 = x % 400 := fun x => Int.fmod_eq_emod_of_nonneg x (by decide)
  unfold ordinal toDays
  simp only [hdiv, hmod, daysPerEra, show (1 : ℕ) ≤ 2 by decide, if_true]
  split <;> omega

theorem weekFrom_lt {d : Date} (h : d.ordinal ≤ 1000) (k : ℕ) : d.weekFrom k < 200 := by
  unfold weekFrom
  omega

theorem isoWeek_lt (d : Date) : d.isoWeek.2 < 200 := by
  obtain ⟨hmonth, hday⟩ := ofDays_range (d.toDays - d.weekdayFromMonday + 3)
  have := ordinal_le hmonth.2 hday.2
  simp only [isoWeek]
  omega

end Date

/-! ## What is put in for the time -/

/-- Whether a character is a slash or a `z`. -/
def isMark (c : Char) : Bool := c = '/' || c = 'z'

/-- A text without slashes and without `z`s. -/
def Bare (s : String) : Prop := ∀ c ∈ s.toList, isMark c = false

instance (s : String) : Decidable (Bare s) :=
  List.decidableBAll (fun c : Char => isMark c = false) s.toList

theorem bare_append {s t : String} : Bare (s ++ t) ↔ Bare s ∧ Bare t := by
  unfold Bare
  rw [String.toList_append, List.forall_mem_append]

theorem Bare.append {s t : String} (hs : Bare s) (ht : Bare t) : Bare (s ++ t) :=
  bare_append.2 ⟨hs, ht⟩

theorem Bare.of_subset {s : String} {cs : List Char} (h : Bare s) (hcs : cs ⊆ s.toList) :
    Bare (String.ofList cs) := by
  intro c hc
  rw [String.toList_ofList] at hc
  exact h c (hcs hc)

theorem Bare.filter {s : String} (h : Bare s) : s.toList.filter isMark = [] := by
  rw [List.filter_eq_nil_iff]
  intro c hc
  rw [h c hc]
  decide

theorem bare_nat (n : ℕ) : Bare (toString n) := by
  intro c hc
  have hd : c.isDigit = true := by
    rw [Nat.toString_eq_repr, Nat.toList_repr] at hc
    exact Nat.isDigit_of_mem_toDigits (by decide) (by decide) hc
  simp only [isMark, Bool.or_eq_false_iff, decide_eq_false_iff_not]
  constructor <;> rintro rfl <;> exact absurd hd (by decide)

theorem bare_pad_right {width : ℕ} {fill : Char} {s : String} (hf : isMark fill = false)
    (hs : Bare s) : Bare (pad ⟨width, none, .right, fill⟩ s) := by
  intro c hc
  simp only [pad, String.toList_ofList, List.mem_append] at hc
  rcases hc with hc | hc
  · rw [(List.mem_replicate.1 hc).2]
    exact hf
  · exact hs c hc

theorem bare_zeroPadded (width n : ℕ) : Bare (zeroPadded width n) :=
  bare_pad_right (by decide) (bare_nat n)

theorem bare_places (width : ℕ) (n : Int) (plus : Bool) (fill : Fill) :
    Bare (places width n plus fill) := by
  have hsign : Bare (if n < 0 then "-" else if plus then "+" else "") := by
    split
    · decide
    · split <;> decide
  unfold places
  cases fill with
  | none => exact hsign.append (bare_nat _)
  | zero => exact hsign.append (bare_zeroPadded _ _)
  | space => exact bare_pad_right (by decide) (hsign.append (bare_nat _))

theorem bare_yearPlaces (y : Int) (fill : Fill) : Bare (yearPlaces y fill) := by
  unfold yearPlaces
  split <;> exact bare_places _ _ _ _

/-- The characters from the first digit to the one before `z`, which a number of two places may
use. -/
theorem isMark_ofNat : ∀ k, k < 74 → isMark (Char.ofNat (48 + k)) = false := by
  decide

/-- A number with its tens in one character is bare if these are not too many. -/
theorem bare_twoPlaces {n : ℕ} (h : n < 740) (fill : Fill) : Bare (twoPlaces n fill) := by
  have hones : isMark (Char.ofNat (48 + n % 10)) = false := isMark_ofNat _ (by omega)
  have htens : isMark (Char.ofNat (48 + n / 10)) = false := isMark_ofNat _ (by omega)
  unfold twoPlaces
  dsimp only
  split <;> intro c hc <;> rw [String.toList_ofList] at hc <;>
    simp only [List.mem_cons, List.not_mem_nil, or_false] at hc
  · rw [hc]
    exact hones
  · rcases hc with rfl | rfl
    · decide
    · exact hones
  · rcases hc with rfl | rfl
    · exact htens
    · exact hones

theorem bare_decimals (n : ℕ) : Bare (Instant.decimals n) := by
  unfold Instant.decimals
  split
  · decide
  split
  · exact .append (by decide) (bare_zeroPadded _ _)
  split
  · exact .append (by decide) (bare_zeroPadded _ _)
  · exact .append (by decide) (bare_zeroPadded _ _)

theorem bare_yearText (y : Int) : Bare (Instant.yearText y) := by
  unfold Instant.yearText
  split
  · exact bare_zeroPadded _ _
  · refine Bare.append ?_ (bare_zeroPadded _ _)
    split <;> decide

theorem bare_rfc3339 (t : Instant) {zone : String} (hz : Bare zone) : Bare (t.rfc3339 zone) := by
  unfold Instant.rfc3339
  dsimp only
  simp only [bare_append, bare_yearText, bare_zeroPadded, bare_decimals, hz, true_and, and_true]
  decide

/-- The name of a day or a month, if there is one with that number. -/
theorem bare_getD {names : List String} (h : ∀ s ∈ names, Bare s) (i : ℕ) :
    Bare (names.getD i "") := by
  rw [List.getD_eq_getElem?_getD]
  cases hi : names[i]? with
  | none => decide
  | some s => exact h s (List.mem_of_getElem? hi)

theorem bare_monthName (i : ℕ) : Bare (monthNames.getD i "") := bare_getD (by decide) i

theorem bare_weekdayName (i : ℕ) : Bare (weekdayNames.getD i "") := bare_getD (by decide) i

theorem bare_shortName {s : String} (h : Bare s) : Bare (shortName s) :=
  h.of_subset (List.take_subset _ _)

/-! ### Zones -/

theorem bare_sign (z : Zone) : Bare z.sign := by
  unfold Zone.sign
  split <;> decide

theorem bare_offset (z : Zone) {between : String} (h : Bare between) : Bare (z.offset between) := by
  unfold Zone.offset
  exact (((bare_sign z).append (bare_zeroPadded _ _)).append h).append (bare_zeroPadded _ _)

theorem bare_exactOffset (z : Zone) : Bare z.exactOffset := by
  unfold Zone.exactOffset
  dsimp only
  simp only [bare_append, bare_sign, bare_zeroPadded, true_and, and_true]
  decide

theorem bare_zoneName (z : Zone) : Bare z.name := by
  cases z with
  | utc => decide
  | ahead s =>
    have hcolon : Bare ":" := by decide
    rw [Zone.name]
    split
    · exact bare_offset (.ahead s) hcolon
    · exact bare_exactOffset (.ahead s)

/-! ### Items -/

variable {t t' : Instant} {zone zone' : Zone}

/-- Every number that a pattern may ask for is bare. -/
theorem bare_numberText (ht : t.nanos < 1000000000) (fill : Fill) (n : NumberItem) :
    Bare (numberText t zone fill n) := by
  obtain ⟨⟨-, hmonth⟩, -, hday⟩ := Date.ofDays_range (t.seconds.fdiv 86400)
  have hordinal := Date.ordinal_le hmonth hday
  have hweek := Date.weekFrom_lt hordinal
  have hiso := Date.isoWeek_lt t.date
  have hsecond : t.secondOfDay < 86400 := by
    have := Int.fmod_lt_of_pos t.seconds (b := 86400) (by decide)
    unfold Instant.secondOfDay
    omega
  cases n with
  | year => exact bare_yearPlaces _ _
  | century =>
    have := Int.fmod_lt_of_pos (t.date.year.fdiv 100) (b := 256) (by decide)
    exact bare_twoPlaces (by omega) _
  | yearOfCentury =>
    have := Int.fmod_lt_of_pos t.date.year (b := 100) (by decide)
    exact bare_twoPlaces (by omega) _
  | isoYear => exact bare_yearPlaces _ _
  | isoYearOfCentury =>
    have := Int.fmod_lt_of_pos t.date.isoWeek.1 (b := 100) (by decide)
    exact bare_twoPlaces (by omega) _
  | quarter => exact bare_nat _
  | month => exact bare_twoPlaces (Nat.lt_of_le_of_lt hmonth (by decide)) _
  | day => exact bare_twoPlaces (Nat.lt_of_le_of_lt hday (by decide)) _
  | weekFromSunday => exact bare_twoPlaces (Nat.lt_trans (hweek _) (by decide)) _
  | weekFromMonday => exact bare_twoPlaces (Nat.lt_trans (hweek _) (by decide)) _
  | isoWeek => exact bare_twoPlaces (Nat.lt_trans hiso (by decide)) _
  | daysFromSunday => exact bare_nat _
  | weekdayFromMonday => exact bare_nat _
  | ordinal => exact bare_places _ _ _ _
  | hour => exact bare_twoPlaces (by unfold Instant.hour; omega) _
  | hour12 => exact bare_twoPlaces (by split <;> omega) _
  | minute => exact bare_twoPlaces (by unfold Instant.minute; omega) _
  | second => exact bare_twoPlaces (by unfold Instant.second; omega) _
  | nanosecond => exact bare_places _ _ _ _
  | timestamp => exact bare_places _ _ _ _

/-- So is every text. -/
theorem bare_textText {s : String} {x : TextItem} (h : textText? t zone x = some s) : Bare s := by
  cases x <;> simp only [textText?, Option.some.injEq, reduceCtorEq] at h <;> subst h
  case shortMonth => exact bare_shortName (bare_monthName _)
  case longMonth => exact bare_monthName _
  case shortWeekday => exact bare_shortName (bare_weekdayName _)
  case longWeekday => exact bare_weekdayName _
  case lowerAmPm | upperAmPm => split <;> decide
  case decimals => exact bare_decimals _
  case decimals3 | decimals6 | decimals9 => exact .append (by decide) (bare_zeroPadded _ _)
  case digits3 | digits6 | digits9 => exact bare_zeroPadded _ _
  case zoneName => exact bare_zoneName zone
  case zoneOffset | zoneColon => exact bare_offset zone (by decide)
  case zoneDoubleColon => exact bare_exactOffset zone
  case zoneTripleColon => exact (bare_sign zone).append (bare_zeroPadded _ _)
  case rfc3339 => exact bare_rfc3339 t (bare_offset zone (by decide))

/-- The slashes and `z`s of an item. -/
def Item.marks : Item → List Char
  | .literal c => [c].filter isMark
  | _ => []

/-- **What is put in for the time has no slash and no `z`.** -/
theorem render?_bare (ht : t.nanos < 1000000000) {i : Item} {s : String}
    (h : i.render? t zone = some s) : s.toList.filter isMark = i.marks := by
  cases i with
  | literal c =>
    cases h
    rw [String.toList_ofList, Item.marks]
  | number n fill =>
    cases h
    exact (bare_numberText ht fill n).filter
  | text x => exact (bare_textText h).filter

theorem renderItems?_marks (ht : t.nanos < 1000000000) :
    ∀ {is : List Item} {s : String}, renderItems? t zone is = some s →
      s.toList.filter isMark = is.flatMap Item.marks := by
  intro is
  induction is with
  | nil =>
    intro s h
    cases h
    rfl
  | cons i is ih =>
    intro s h
    simp only [renderItems?, Option.bind_eq_bind, Option.bind_eq_some_iff, Option.some.injEq] at h
    obtain ⟨a, ha, b, hb, rfl⟩ := h
    rw [String.toList_append, List.filter_append, render?_bare ht ha, ih hb, List.flatMap_cons]

/-- **At all times a template gives the same slashes and the same `z`s.** -/
theorem fill?_marks {pattern s s' : String} {r r' : Reading} (h : fill? pattern r = some s)
    (h' : fill? pattern r' = some s') : s.toList.filter isMark = s'.toList.filter isMark := by
  simp only [fill?, format?, Option.bind_eq_bind, Option.bind_eq_some_iff] at h h'
  obtain ⟨is, his, hs⟩ := h
  obtain ⟨is', his', hs'⟩ := h'
  obtain rfl : is = is' := Option.some.inj (his.symm.trans his')
  -- a zone changes the seconds only
  have hshown (r : Reading) : (r.zone.shown r.instant).nanos < 1000000000 := r.whole
  rw [renderItems?_marks (hshown r) hs, renderItems?_marks (hshown r') hs']

/-- Only the lenient zone cannot be put in, and at no time. -/
theorem render?_isSome (t t' : Instant) (zone zone' : Zone) (i : Item) :
    (i.render? t zone).isSome = (i.render? t' zone').isSome := by
  cases i with
  | literal c => rfl
  | number n fill => rfl
  | text x => cases x <;> simp only [Item.render?, textText?, Option.isSome_some]

theorem renderItems?_isSome (is : List Item) :
    (renderItems? t zone is).isSome ↔ ∀ i ∈ is, (i.render? t zone).isSome := by
  induction is with
  | nil => simp [renderItems?]
  | cons i is ih =>
    rw [List.forall_mem_cons, ← ih, renderItems?]
    cases i.render? t zone with
    | none => simp
    | some a => cases renderItems? t zone is <;> simp

/-- **A template that can be filled in once can be filled in at all times.** -/
theorem fill?_isSome {pattern s : String} {r : Reading} (r' : Reading)
    (h : fill? pattern r = some s) :
    ∃ s', fill? pattern r' = some s' := by
  simp only [fill?, format?, Option.bind_eq_bind, Option.bind_eq_some_iff] at h ⊢
  obtain ⟨is, his, hs⟩ := h
  have hitems : ∀ i ∈ is, (i.render? (r.zone.shown r.instant) r.zone).isSome := by
    rw [← renderItems?_isSome, hs]
    rfl
  have hthen : (renderItems? (r'.zone.shown r'.instant) r'.zone is).isSome := by
    rw [renderItems?_isSome]
    intro i hi
    rw [render?_isSome _ (r.zone.shown r.instant) _ r.zone i]
    exact hitems i hi
  obtain ⟨s', hs'⟩ := Option.isSome_iff_exists.1 hthen
  exact ⟨s', is, his, hs'⟩

end Logging.Time

namespace Logging.Disk.Path

open Time

theorem splitPieces_cons {c : Char} (hc : c ≠ '/') {cs p : List Char} {ps : List (List Char)}
    (h : splitPieces cs = p :: ps) : splitPieces (c :: cs) = (c :: p) :: ps := by
  simp only [splitPieces, h]

theorem splitPieces_ne_nil (cs : List Char) : splitPieces cs ≠ [] := by
  cases cs with
  | nil => simp [splitPieces]
  | cons c cs =>
    unfold splitPieces
    split <;> simp

/-- The other characters neither part pieces nor count. -/
theorem splitPieces_filter (cs : List Char) :
    (splitPieces (cs.filter isMark)).map (List.count 'z') =
      (splitPieces cs).map (List.count 'z') := by
  induction cs with
  | nil => rfl
  | cons c cs ih =>
    by_cases hslash : c = '/'
    · subst hslash
      rw [List.filter_cons_of_pos (by decide)]
      simp only [splitPieces, List.map_cons, ih]
    · obtain ⟨p, ps, hp⟩ := List.exists_cons_of_ne_nil (splitPieces_ne_nil cs)
      rw [hp, List.map_cons] at ih
      rw [splitPieces_cons hslash hp, List.map_cons]
      by_cases hz : c = 'z'
      · subst hz
        rw [List.filter_cons_of_pos (by decide)]
        obtain ⟨q, qs, hq⟩ := List.exists_cons_of_ne_nil (splitPieces_ne_nil (cs.filter isMark))
        rw [hq, List.map_cons, List.cons.injEq] at ih
        rw [splitPieces_cons hslash hq, List.map_cons, List.count_cons_self, List.count_cons_self,
          ih.1, ih.2]
      · rw [List.filter_cons_of_neg (by simp [isMark, hslash, hz]), ih, List.count_cons_of_ne hz]

/-- How many `z`s the last piece of a path has. -/
def marks (p : Path) : ℕ := (p.pieces.getLast?.map fun x => x.toList.count 'z').getD 0

theorem marks_eq {p : Path} {x : String} (h : p.pieces.getLast? = some x) :
    p.marks = x.toList.count 'z' := by
  simp [marks, h]

/-- **The last piece of a path has as many `z`s** as the slashes and `z`s of its text say. -/
theorem marks_ofText {s t : String} (h : s.toList.filter isMark = t.toList.filter isMark) :
    (ofText s).marks = (ofText t).marks := by
  have hcounts : ∀ u : String, (ofText u).marks =
      (((splitPieces (u.toList.filter isMark)).map (List.count 'z')).getLast?).getD 0 := by
    intro u
    simp [marks, ofText, splitPieces_filter, Function.comp_def]
  rw [hcounts s, hcounts t, h]

end Logging.Disk.Path
