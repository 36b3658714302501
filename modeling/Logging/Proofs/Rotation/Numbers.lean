import Mathlib.Data.List.Basic
import Logging.Proofs.Rotation.Names
import Logging.Proofs.Rotation.Templates

/-!
# Names with numbers in them

When a template gives a name that is taken, a number is put into it. The template may give any path,
even one that does not end in a name.

* `numbered_pieces`: the numbers stand in the last piece of a path, and nothing else changes.
* `home`, `numbered_leads`: the directory that these names are in.
* `numberedName_inj`, `numberedName_ne_packed`: different numbers make different names, also when
  some of the files are compressed.
* `OfSeries`: what the names of the files of a series have in common.
* `next_ofSeries`, `temporary_not_ofSeries`: **whatever the template gives, the next file has such a
  name, and a temporary file has none.**
-/

namespace Logging

namespace Disk

/-- Another name stands behind the same pieces. -/
theorem Path.withFileName_snoc (p : Path) : ∃ before : List String, ∀ x : String,
    (p.withFileName x).pieces = before ++ [x] := by
  have hpush : ∀ q : Path, ∃ before : List String, ∀ x : String,
      (q.push x).pieces = before ++ [x] := by
    intro q
    unfold Path.push
    split
    · exact ⟨q.pieces.dropLast, fun _ => rfl⟩
    · exact ⟨q.pieces, fun _ => rfl⟩
  unfold Path.withFileName
  split
  · exact hpush p
  · exact ⟨[], fun _ => rfl⟩
  · exact hpush _

/-- A name that is not ordinary is empty or consists of points. -/
theorem not_ordinary {name : String} (h : ¬ Ordinary name) :
    name = "" ∨ name = "." ∨ name = ".." := by
  unfold Ordinary Path.idle at h
  by_contra hne
  simp only [not_or] at hne
  exact h ⟨by simp [hne.1, hne.2.1], hne.2.2⟩

/-- The characters of a name: those of its stem, and those of its extension, which has no other
point. -/
theorem splitName_toList (name : String) :
    name.toList = (splitName name).1.toList ++ (splitName name).2.toList ∧
      ((splitName name).2.toList = [] ∨
        ∃ e : List Char, '.' ∉ e ∧ (splitName name).2.toList = '.' :: e) := by
  by_cases hn : Ordinary name
  · obtain ⟨stem, extension, hs, hname, -, he⟩ := splitName_spec hn
    rw [hs]
    refine ⟨by rw [hname, String.toList_append], ?_⟩
    rcases he with rfl | he
    · exact .inl rfl
    · exact .inr he
  · rcases not_ordinary hn with rfl | rfl | rfl
    · exact ⟨by decide, .inl (by decide)⟩
    · exact ⟨by decide, .inl (by decide)⟩
    · exact ⟨by decide, .inl (by decide)⟩

end Disk

namespace Sink.RotatingFile

open Disk

variable {p q : Path} {x : String} {i j z : ℕ}

/-- The last piece of a path with a number in it. -/
def numberedName (p : Path) (i : ℕ) : String :=
  (splitName (p.fileName?.getD "")).1 ++ "." ++ toString i ++ (splitName (p.fileName?.getD "")).2

/-- **Numbers stand in the last piece of a path**, and nothing else changes. -/
theorem numbered_pieces (p : Path) : ∃ before : List String, ∀ i,
    (numbered p i).pieces = before ++ [numberedName p i] := by
  obtain ⟨before, hb⟩ := p.withFileName_snoc
  exact ⟨before, fun i => hb _⟩

/-- The directory that the names with numbers are in. -/
def home (p : Path) : Location := (numbered p 0).location.dropLast

/-- The characters of these names. -/
theorem numberedName_toList (p : Path) : ∃ stem extension : List Char,
    (p.fileName?.getD "").toList = stem ++ extension ∧
      (extension = [] ∨ ∃ e, '.' ∉ e ∧ extension = '.' :: e) ∧
      ∀ i, (numberedName p i).toList = stem ++ '.' :: (Nat.toDigits 10 i ++ extension) := by
  obtain ⟨hname, he⟩ := splitName_toList (p.fileName?.getD "")
  refine ⟨_, _, hname, he, fun i => ?_⟩
  simp [numberedName, Nat.toString_eq_repr, Nat.toList_repr]

theorem ordinary_numberedName (p : Path) (i : ℕ) : Ordinary (numberedName p i) := by
  obtain ⟨stem, extension, -, -, hl⟩ := numberedName_toList p
  by_contra hn
  -- there is a digit in it
  obtain ⟨c, cs, hc⟩ := List.exists_cons_of_ne_nil (Nat.toDigits_ne_nil (n := i) (b := 10))
  have hmem : c ∈ (numberedName p i).toList := by
    rw [hl, hc]
    simp
  have hdigit : c.isDigit = true :=
    Nat.isDigit_of_mem_toDigits (n := i) (b := 10) (by decide) (by decide) (by rw [hc]; simp)
  have hpoint : c = '.' := by
    rcases not_ordinary hn with h | h | h <;> rw [h] at hmem <;> simp at hmem <;> exact hmem
  subst hpoint
  exact absurd hdigit (by decide)

/-- **The names with numbers are in one directory**, whatever the template gives. -/
theorem numbered_leads (p : Path) (i : ℕ) : (numbered p i).Leads (home p) (numberedName p i) := by
  obtain ⟨before, hbefore⟩ := numbered_pieces p
  have hleads : ∀ j, (numbered p j).Leads (Path.folder before) (numberedName p j) := fun j =>
    ⟨ordinary_numberedName p j, before, hbefore j, rfl⟩
  have hhome : home p = Path.folder before := by simp [home, (hleads 0).location]
  rw [hhome]
  exact hleads i

/-- **Different numbers make different names.** -/
theorem numberedName_inj (h : numberedName p i = numberedName p j) : i = j := by
  obtain ⟨stem, extension, -, -, hl⟩ := numberedName_toList p
  have hlist := congrArg String.toList h
  rw [hl, hl, List.append_cancel_left_eq, List.cons.injEq, List.append_cancel_right_eq] at hlist
  exact digits_inj hlist.2

/-- **A name with a number is not that of the compressed form of another.** -/
theorem numberedName_ne_packed : numberedName p i ≠ numberedName p j ++ ".gz" := by
  intro h
  obtain ⟨stem, extension, -, he, hl⟩ := numberedName_toList p
  have hlist := congrArg String.toList h
  rw [String.toList_append, hl, hl, List.append_assoc, List.append_cancel_left_eq,
    List.cons_append, List.cons.injEq, List.append_assoc] at hlist
  have hi := notMem_digits (c := '.') rfl i
  rcases he with rfl | ⟨e, he, rfl⟩
  · -- without an extension the first number would have a point in it
    have hmem : '.' ∈ Nat.toDigits 10 i ++ [] := by
      rw [hlist.2]
      simp
    rw [List.append_nil] at hmem
    exact hi hmem
  · -- with one, the extensions would differ in length
    obtain ⟨-, -, hext⟩ := (List.append_cons_inj_of_notMem hi he).1 hlist.2
    have := congrArg List.length hext
    simp at this

/-- A name with a number never ends like that of a temporary file. -/
theorem numberedName_ne_temporary (y : String) : numberedName p i ≠ y ++ ".gz" ++ ".tmp" := by
  intro h
  obtain ⟨stem, extension, -, he, hl⟩ := numberedName_toList p
  have hlist := congrArg (fun s : String => s.toList.reverse) h
  simp only [hl, String.toList_append] at hlist
  have hdigit : ∀ c ∈ Nat.toDigits 10 i, c.isDigit = true := fun c hc =>
    Nat.isDigit_of_mem_toDigits (by decide) (by decide) hc
  -- the last digit of the number stands where a letter should be
  obtain ⟨c, cs, hc⟩ : ∃ c cs, (Nat.toDigits 10 i).reverse = c :: cs :=
    List.exists_cons_of_ne_nil (by simp [Nat.toDigits_ne_nil])
  have hcd : c.isDigit = true := hdigit c (by
    rw [← List.mem_reverse, hc]
    exact List.mem_cons_self)
  rcases he with rfl | ⟨e, he, rfl⟩
  · have : c = 'p' := by
      simp [hc] at hlist
      exact hlist.1
    subst this
    exact absurd hcd (by decide)
  · -- the extension ends at the first point from behind
    have hparts : e.reverse ++ '.' :: ((Nat.toDigits 10 i).reverse ++ '.' :: stem.reverse) =
        ['p', 'm', 't'] ++ '.' :: ('z' :: 'g' :: '.' :: y.toList.reverse) := by
      simpa using hlist
    have hfirst := congrArg (List.takeWhile (· ≠ '.')) hparts
    rw [List.takeWhile_append_of_pos (by
      intro a ha
      rw [List.mem_reverse] at ha
      simp only [ne_eq, decide_eq_true_eq]
      rintro rfl
      exact he ha)] at hfirst
    have hext : e.reverse = ['p', 'm', 't'] := by simpa using hfirst
    rw [hext, List.append_cancel_left_eq, hc, List.cons_append, List.cons.injEq,
      List.cons.injEq] at hparts
    rw [hparts.2.1] at hcd
    exact absurd hcd (by decide)

/-- A number takes none of the `z`s away that the path ends with. -/
theorem marks_le_numberedName (p : Path) (i : ℕ) :
    p.marks ≤ (numberedName p i).toList.count 'z' := by
  obtain ⟨stem, extension, hname, -, hl⟩ := numberedName_toList p
  by_cases hp : p.endsInName
  · obtain ⟨here, name, hleads, hlast⟩ := Path.leads_of_endsInName hp
    rw [hleads.fileName?, Option.getD_some] at hname
    rw [Path.marks_eq hlast, hname, hl]
    simp only [List.count_append, List.count_cons]
    omega
  · -- a piece that is no name has none
    cases hlast : p.pieces.getLast? with
    | none => simp [Path.marks, hlast]
    | some x =>
      have hx : ¬ Ordinary x := by
        intro ho
        refine hp ?_
        simp [Path.endsInName, hlast, ho.1, ho.2]
      rw [Path.marks_eq hlast]
      rcases not_ordinary hx with rfl | rfl | rfl <;> simp

/-! ## The names of a series -/

/-- **What the names of a series have in common**: at least as many `z`s as the template puts at the
end of a path, and no more than those where the name ends like that of a temporary file. -/
structure OfSeries (z : ℕ) (x : String) : Prop where
  least : z ≤ x.toList.count 'z'
  most : ∀ y, x = y ++ ".gz" ++ ".tmp" → x.toList.count 'z' ≤ z

/-- **A temporary file has none of these names**, as it has one `z` more than the file that is
compressed. -/
theorem temporary_not_ofSeries (h : OfSeries z x) : ¬ OfSeries z (x ++ ".gz" ++ ".tmp") := by
  intro ht
  have hmost := ht.most x rfl
  have hleast := h.least
  simp only [String.toList_append, List.count_append] at hmost
  have : ".gz".toList.count 'z' = 1 := by decide
  omega

/-- **Whatever the template gives, the next file has such a name**, with a number in it or
without. -/
theorem next_ofSeries (hq : q = p ∨ ∃ i, q = numbered p i) (hends : q.endsInName) :
    ∃ here x, q.Leads here x ∧ OfSeries p.marks x := by
  rcases hq with rfl | ⟨i, rfl⟩
  · obtain ⟨here, x, hleads, hlast⟩ := Path.leads_of_endsInName hends
    have hx := Path.marks_eq hlast
    exact ⟨here, x, hleads, ⟨hx.le, fun _ _ => hx.ge⟩⟩
  · obtain ⟨before, hb⟩ := numbered_pieces p
    exact ⟨_, _, ⟨ordinary_numberedName p i, before, hb i, rfl⟩,
      ⟨marks_le_numberedName p i, fun y hy => absurd hy (numberedName_ne_temporary y)⟩⟩

end Sink.RotatingFile

end Logging
