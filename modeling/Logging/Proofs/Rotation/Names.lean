import Mathlib.Data.List.Basic
import Logging.Proofs.Disk.Names
import Logging.Sink.RotatingFile

/-!
# The names in a series of files

The first file of a series has the name that the template gives; the others have numbers in it.

* `Time.fill?_plain`: a template without specifiers always gives the same name.
* `seriesPath_leads`: they lead to files in one directory.
* `seriesName_inj`, `packed_ne`, `temporary_ne`: **no two of them are the same**, also when some are
  compressed and while one is being compressed.
-/

namespace Logging

namespace Time

theorem items?_plain : ∀ cs : List Char, '%' ∉ cs → items? cs = some (cs.map .literal) := by
  intro cs
  induction cs with
  | nil => intro _; rfl
  | cons c cs ih =>
    intro h
    rw [List.mem_cons, not_or] at h
    have hc : c ≠ '%' := fun he => h.1 he.symm
    rw [items?]
    · simp [ih h.2]
    all_goals intros; simp_all

theorem renderItems?_plain (t : Instant) (zone : Zone) : ∀ cs : List Char,
    renderItems? t zone (cs.map .literal) = some (String.ofList cs) := by
  intro cs
  induction cs with
  | nil => rfl
  | cons c cs ih => simp [renderItems?, ih, Item.render?]

/-- **A pattern without specifiers** gives the same text at every time. -/
theorem fill?_plain {pattern : String} (h : '%' ∉ pattern.toList) (r : Reading) :
    fill? pattern r = some pattern := by
  simp [fill?, format?, items?_plain _ h, renderItems?_plain]

end Time

namespace Sink

open Disk

namespace RotatingFile

/-- The path of the file with that number in a series. -/
def seriesPath (p : Path) : ℕ → Path
  | 0 => p
  | i + 1 => numbered p (i + 1)

/-- The name of that file. -/
def seriesName (name : String) : ℕ → String
  | 0 => name
  | i + 1 => (splitName name).1 ++ "." ++ toString (i + 1) ++ (splitName name).2

variable {p : Path} {here : Location} {name : String} {i j : ℕ}

theorem ordinary_seriesName (hn : Ordinary name) (i : ℕ) : Ordinary (seriesName name i) := by
  cases i with
  | zero => exact hn
  | succ i =>
    obtain ⟨stem, extension, hs, -, hpos, -⟩ := splitName_spec hn
    have hdigits : 0 < (toString (i + 1)).length := Nat.length_repr_pos
    refine ordinary_of_length ?_
    simp only [seriesName, hs, String.length_append, show ".".length = 1 from rfl]
    omega

/-- **The files of a series are in one directory.** -/
theorem seriesPath_leads (h : p.Leads here name) (i : ℕ) :
    (seriesPath p i).Leads here (seriesName name i) := by
  cases i with
  | zero => exact h
  | succ i =>
    have ho := ordinary_seriesName h.1 (i + 1)
    simp only [seriesPath, numbered, h.fileName?, Option.getD_some]
    exact h.withFileName ho

theorem packed_leads (h : p.Leads here name) : (packedPath p).Leads here (name ++ ".gz") :=
  h.suffixed (by decide)

theorem temporary_leads (h : p.Leads here name) :
    ((packedPath p).suffixed ".tmp").Leads here (name ++ ".gz" ++ ".tmp") :=
  (packed_leads h).suffixed (by decide)

/-! ## Different names -/

/-- What is between the stem and the extension. -/
def mark : ℕ → List Char
  | 0 => []
  | i + 1 => '.' :: Nat.toDigits 10 (i + 1)

theorem notMem_digits {c : Char} (hc : c.isDigit = false) (n : ℕ) : c ∉ Nat.toDigits 10 n := by
  intro h
  have := Nat.isDigit_of_mem_toDigits (by decide) (by decide) h
  simp [hc] at this

theorem digits_inj (h : Nat.toDigits 10 i = Nat.toDigits 10 j) : i = j := by
  rw [← Nat.ofDigitChars_ten_toDigits (n := i), h, Nat.ofDigitChars_ten_toDigits]

theorem mark_inj (h : mark i = mark j) : i = j := by
  cases i <;> cases j <;> simp only [mark, List.cons.injEq, true_and, reduceCtorEq] at h
  · rfl
  · exact digits_inj h

theorem count_mark (i : ℕ) : (mark i).count '.' = if i = 0 then 0 else 1 := by
  cases i with
  | zero => rfl
  | succ i => simp [mark, List.count_eq_zero.2 (notMem_digits (c := '.') rfl (i + 1))]

/-- The characters of the names in a series. -/
theorem seriesName_toList (hn : Ordinary name) : ∃ stem extension : List Char,
    (extension = [] ∨ ∃ e, '.' ∉ e ∧ extension = '.' :: e) ∧
      ∀ i, (seriesName name i).toList = stem ++ (mark i ++ extension) := by
  obtain ⟨stem, extension, hs, hname, -, he⟩ := splitName_spec hn
  refine ⟨stem.toList, extension.toList, ?_, fun i => ?_⟩
  · rcases he with rfl | ⟨e, he⟩
    · exact .inl rfl
    · exact .inr ⟨e, he⟩
  · cases i with
    | zero => simp [seriesName, hname, mark]
    | succ i => simp [seriesName, hs, mark, Nat.toString_eq_repr, Nat.toList_repr]

/-- **Files with different numbers have different names.** -/
theorem seriesName_inj (hn : Ordinary name) (h : seriesName name i = seriesName name j) :
    i = j := by
  obtain ⟨stem, extension, -, hl⟩ := seriesName_toList hn
  have := congrArg String.toList h
  rw [hl, hl, List.append_cancel_left_eq, List.append_cancel_right_eq] at this
  exact mark_inj this

/-- Counting points: if a longer name is one of the series, only the latter has a number in it. -/
theorem seriesName_append {s : String} (hn : Ordinary name) (hs : 0 < s.toList.count '.')
    (h : seriesName name i ++ s = seriesName name j) :
    i = 0 ∧ j ≠ 0 ∧ s.toList.count '.' = 1 := by
  obtain ⟨stem, extension, -, hl⟩ := seriesName_toList hn
  have hcount := congrArg (fun t : String => t.toList.count '.') h
  simp only [String.toList_append, hl, List.count_append, count_mark] at hcount
  refine ⟨?_, ?_, ?_⟩
  · by_contra hi
    simp only [hi, if_false] at hcount
    split at hcount <;> omega
  · rintro rfl
    simp only [if_true] at hcount
    omega
  · split at hcount <;> split at hcount <;> omega

/-- **No file of a series has the name of the compressed form of another.** -/
theorem packed_ne (hn : Ordinary name) : seriesName name i ++ ".gz" ≠ seriesName name j := by
  intro h
  obtain ⟨stem, extension, he, hl⟩ := seriesName_toList hn
  obtain ⟨rfl, hj, -⟩ := seriesName_append hn (by decide) h
  obtain ⟨k, rfl⟩ := Nat.exists_eq_succ_of_ne_zero hj
  have hlist := congrArg String.toList h
  rw [String.toList_append, hl, hl, List.append_assoc, List.append_cancel_left_eq] at hlist
  have hg := notMem_digits (c := 'g') rfl (k + 1)
  rcases he with rfl | ⟨e, hpoint, rfl⟩
  · -- without an extension the number would be the letters
    have : Nat.toDigits 10 (k + 1) = ['g', 'z'] := by simpa [mark] using hlist.symm
    simp [this] at hg
  · -- with one, the number would be the extension and this the letters
    have hlist' : Nat.toDigits 10 (k + 1) ++ '.' :: e = e ++ '.' :: ['g', 'z'] := by
      simpa [mark] using hlist.symm
    obtain ⟨hd, -, rfl⟩ :=
      (List.append_cons_inj_of_notMem (notMem_digits rfl (k + 1)) hpoint).1 hlist'
    simp [hd] at hg

/-- **The name of a temporary file is no other's**: neither that of a file of the series nor that of
a compressed form. -/
theorem temporary_ne (hn : Ordinary name) :
    seriesName name i ++ ".gz" ++ ".tmp" ≠ seriesName name j ∧
      seriesName name i ++ ".gz" ++ ".tmp" ≠ seriesName name j ++ ".gz" := by
  constructor
  · intro h
    rw [String.append_assoc] at h
    have := (seriesName_append hn (by decide) h).2.2
    exact absurd this (by decide)
  · intro h
    have := congrArg (fun t : String => t.toList.getLast?) h
    simp at this

theorem packed_inj (hn : Ordinary name)
    (h : seriesName name i ++ ".gz" = seriesName name j ++ ".gz") : i = j := by
  have := congrArg String.toList h
  rw [String.toList_append, String.toList_append, List.append_cancel_right_eq] at this
  exact seriesName_inj hn (String.toList_inj.1 this)

end RotatingFile

end Sink

end Logging
