import Mathlib.Data.List.Nodup
import Mathlib.Data.List.Perm.Subperm
import Mathlib.Order.Nat
import Logging.Proofs.Disk.Entries
import Logging.Proofs.Rotation.Numbers

/-!
# The search for the name of the next file

Numbers are tried one after the other. No more of them are taken than there are names on the disk,
so a search that may try as many numbers as there are names comes to the first free one.

* `search_eq`: the search passes over the numbers that are taken.
* `taken_le_namesIn`, `taken_le`: there are no more of those in a row than names in the directory,
  or on the disk.
* `search_finds`: **the search finds the first free number**, if there is one.
* `nextPath_finds`, `nextPath_free`: so does a rotating file that begins a new file.
-/

namespace Logging.Sink.RotatingFile

open Disk

variable {p : Path} {here : Location} {name : String} {f : RotatingFile} {d : Disk} {i j k : ℕ}

/-- **The search passes over numbers that are taken** and stops at the first one that is free. -/
theorem search_eq {taken : Path → Bool} (hfree : taken (numbered p k) = false)
    (hk : k ≤ indexLimit) : ∀ (n i : ℕ), i ≤ k → (∀ j, i ≤ j → j < k → taken (numbered p j)) →
      k - i ≤ n → search taken p n i = (numbered p k, min (k + 1) indexLimit) := by
  intro n
  induction n with
  | zero =>
    intro i hik _ hn
    obtain rfl : i = k := by omega
    rfl
  | succ n ih =>
    intro i hik htaken hn
    rcases Nat.eq_or_lt_of_le hik with rfl | hlt
    · simp [search, hfree]
    · have hnext : min (i + 1) indexLimit = i + 1 := by omega
      rw [search, if_pos (htaken i (Nat.le_refl i) hlt), hnext]
      exact ih (i + 1) hlt (fun j hj => htaken j (by omega)) (by omega)

theorem node?_of_present {q : Path} (h : d.present q) : ∃ x, d.node? q.location = some x := by
  unfold present at h
  cases hx : d.node? q.location with
  | none => simp [hx] at h
  | some x => exact ⟨x, rfl⟩

theorem seriesPath_eq (p : Path) (hi : 0 < i) : numbered p i = seriesPath p i := by
  obtain ⟨k, rfl⟩ := Nat.exists_eq_succ_of_ne_zero (Nat.ne_of_gt hi)
  rfl

/-- The name that makes a number taken: that of the file, or that of its compressed form. -/
def takenName (d : Disk) (p : Path) (i : ℕ) : String :=
  if d.present (numbered p i) then numberedName p i else numberedName p i ++ ".gz"

theorem takenName_inj (h : takenName d p i = takenName d p j) : i = j := by
  unfold takenName at h
  split at h <;> split at h
  · exact numberedName_inj h
  · exact absurd h numberedName_ne_packed
  · exact absurd h.symm numberedName_ne_packed
  · have := congrArg String.toList h
    rw [String.toList_append, String.toList_append, List.append_cancel_right_eq] at this
    exact numberedName_inj (String.toList_inj.1 this)

/-- How many names there are in a directory. -/
def namesIn (d : Disk) (here : Location) : ℕ := (d.nodes.filter fun e => e.1.dropLast = here).length

/-- **No more numbers in a row are taken than there are names in the directory** of the series. -/
theorem taken_le_namesIn (htaken : ∀ j, i ≤ j → j < k → f.isTaken d (numbered p j)) :
    k - i ≤ namesIn d (home p) := by
  -- each of them takes a name of its own
  have hnodup : ((List.range' i (k - i)).map fun j => home p ++ [takenName d p j]).Nodup := by
    refine List.Nodup.map_on (fun a _ b _ hab => ?_) List.nodup_range'
    exact takenName_inj (d := d) (p := p) (by simpa using hab)
  have hthere : ∀ {l : Location} {x : Node} {y : String}, l = home p ++ [y] → d.node? l = some x →
      l ∈ (d.nodes.filter fun e => e.1.dropLast = home p).map Prod.fst := by
    rintro l x y rfl hx
    exact List.mem_map_of_mem (List.mem_filter.2 ⟨mem_nodes (by simp) hx, by simp⟩)
  have hsub : ((List.range' i (k - i)).map fun j => home p ++ [takenName d p j]) ⊆
      (d.nodes.filter fun e => e.1.dropLast = home p).map Prod.fst := by
    intro l hl
    obtain ⟨j, hj, rfl⟩ := List.mem_map.1 hl
    obtain ⟨hij, hjk⟩ : i ≤ j ∧ j < k := by
      have := List.mem_range'_1.1 hj
      omega
    have hleads := numbered_leads p j
    have hused := htaken j hij hjk
    unfold takenName
    split
    · rename_i hpresent
      obtain ⟨x, hx⟩ := node?_of_present hpresent
      rw [hleads.location] at hx
      exact hthere rfl hx
    · rename_i hpresent
      obtain ⟨-, hpacked⟩ : f.policy.compress = true ∧ d.present (packedPath (numbered p j)) := by
        simpa [isTaken, hpresent] using hused
      obtain ⟨x, hx⟩ := node?_of_present hpacked
      rw [(packed_leads hleads).location] at hx
      exact hthere rfl hx
  have hlen := (hnodup.subperm hsub).length_le
  simpa [namesIn] using hlen

/-- Nor more than there are names on the disk. -/
theorem taken_le (htaken : ∀ j, i ≤ j → j < k → f.isTaken d (numbered p j)) :
    k - i ≤ d.nodes.length :=
  Nat.le_trans (taken_le_namesIn htaken) (List.length_filter_le _ _)

/-- **The search finds the first free number**, if there is one. -/
theorem search_finds
    (hex : ∃ k, i ≤ k ∧ k ≤ indexLimit ∧ f.isTaken d (numbered p k) = false) :
    ∃ k, i ≤ k ∧ k ≤ indexLimit ∧ f.isTaken d (numbered p k) = false ∧
      (∀ j, i ≤ j → j < k → f.isTaken d (numbered p j)) ∧
      search (f.isTaken d) p d.nodes.length i = (numbered p k, min (k + 1) indexLimit) := by
  classical
  obtain ⟨hik, hk, hfree⟩ := Nat.find_spec hex
  have htaken : ∀ j, i ≤ j → j < Nat.find hex → f.isTaken d (numbered p j) := by
    intro j hij hj
    by_contra hnot
    exact Nat.find_min hex hj ⟨hij, by omega, by simpa using hnot⟩
  exact ⟨Nat.find hex, hik, hk, hfree, htaken,
    search_eq hfree hk _ i hik htaken (taken_le htaken)⟩

/-- **The next file of a series**, whose template gives the same name again, gets the first free
number. -/
theorem nextPath_finds (hi : 0 < f.nextIndex)
    (hex : ∃ k, f.nextIndex ≤ k ∧ k ≤ indexLimit ∧ f.isTaken d (numbered f.base k) = false) :
    ∃ k, 0 < k ∧ f.isTaken d (seriesPath f.base k) = false ∧
      f.nextPath d f.base =
        (seriesPath f.base k, { f with nextIndex := min (k + 1) indexLimit }) := by
  obtain ⟨k, hik, -, hfree, -, hsearch⟩ := search_finds hex
  have hk : 0 < k := Nat.lt_of_lt_of_le hi hik
  rw [seriesPath_eq _ hk] at hfree hsearch
  refine ⟨k, hk, hfree, ?_⟩
  simp only [nextPath, ne_eq, not_true_eq_false, false_and, if_false, hsearch]

/-- **Some name for the next file is free**: the one that the template gives, if it is a new one, or
one with a number that is still to be tried. -/
def HasName (f : RotatingFile) (d : Disk) (p : Path) : Prop :=
  (p ≠ f.base ∧ f.isTaken d p = false) ∨
    ∃ i, (if p = f.base then f.nextIndex else 1) ≤ i ∧ i ≤ indexLimit ∧
      f.isTaken d (numbered p i) = false

/-- **The next file gets a free name**, whatever the template gives: that name, or one with a
number. -/
theorem nextPath_free (h : f.HasName d p) : f.isTaken d (f.nextPath d p).1 = false ∧
    ((f.nextPath d p).1 = p ∨ ∃ i, (f.nextPath d p).1 = numbered p i) := by
  unfold nextPath
  split
  · rename_i hnew
    exact ⟨by simpa using hnew.2, .inl rfl⟩
  · -- the first free number is the one that is found
    rename_i hold
    have hex : ∃ i, (if p = f.base then f.nextIndex else 1) ≤ i ∧ i ≤ indexLimit ∧
        f.isTaken d (numbered p i) = false := by
      rcases h with ⟨hne, hfree⟩ | hex
      · exact absurd ⟨hne, by simp [hfree]⟩ hold
      · exact hex
    obtain ⟨k, -, -, hfree, -, hsearch⟩ := search_finds hex
    by_cases hp : p = f.base
    · simp only [if_pos hp] at hsearch
      simp only [ne_eq, hp, not_true_eq_false, if_false]
      rw [← hp, hsearch]
      exact ⟨hfree, .inr ⟨k, rfl⟩⟩
    · simp only [if_neg hp] at hsearch
      simp only [ne_eq, hp, not_false_eq_true, if_true]
      rw [show RotatingFile.isTaken { f with base := p, nextIndex := 1 } d = f.isTaken d from rfl,
        hsearch]
      exact ⟨hfree, .inr ⟨k, rfl⟩⟩

end Logging.Sink.RotatingFile
