import Mathlib.Logic.Function.Basic
import Logging.Proofs.Disk.Files
import Logging.Proofs.Disk.Names

/-!
# A directory of files

* `Folder`: what stands in a directory, when there are only files in it.
* `Folder.create`, `Folder.rename`, `Folder.remove`: **operations on names do to the directory what
  they say, and leave every other name alone.**
* `makeDirectoriesFrom_spec`: making a directory changes nothing in it.
-/

namespace Logging.Disk

open Function

variable {d d' : Disk} {here l l' : Location} {f : String → Option ℕ} {p q : Path}
  {name other : String} {n : ℕ}

/-! ## Names -/

theorem node?_congr (h : d'.nodes = d.nodes) (l : Location) : d'.node? l = d.node? l := by
  simp [node?, h]

theorem lookup_without (nodes : List (Location × Node)) (l l' : Location) :
    (nodes.filter fun e => e.1 ≠ l).lookup l' = if l' = l then none else nodes.lookup l' := by
  induction nodes with
  | nil => simp
  | cons e nodes ih =>
    obtain ⟨k, x⟩ := e
    by_cases hk : k = l
    · have hskip : l' ≠ l → (l' == k) = false := by rw [hk]; simp
      rw [List.filter_cons_of_neg (by simp [hk]), ih]
      split
      · rfl
      · rename_i hl
        rw [List.lookup_cons, hskip hl]
    · rw [List.filter_cons_of_pos (by simp [hk]), List.lookup_cons, List.lookup_cons, ih]
      by_cases hl : l' = k
      · have : (l' == k) = true := by simp [hl]
        have hne : l' ≠ l := hl ▸ hk
        simp only [this, hne, if_false]
      · have : (l' == k) = false := by simp [hl]
        rw [this]

theorem node?_put (hl : l ≠ []) (x : Node) (d : Disk) (l' : Location) :
    (d.put l x).node? l' = if l' = l then some x else d.node? l' := by
  by_cases he : l' = l
  · subst he
    simp only [node?, put, hl, if_false, List.lookup_append, lookup_without, if_true,
      Option.none_or, List.lookup_cons_self]
  · by_cases h0 : l' = []
    · subst h0; simp [node?, he]
    · have : (l' == l) = false := by simp [he]
      simp only [node?, put, h0, he, if_false, List.lookup_append, lookup_without,
        List.lookup_cons, this, List.lookup_nil, Option.or_none]

theorem node?_erase (hl : l ≠ []) (d : Disk) (l' : Location) :
    (d.erase l).node? l' = if l' = l then none else d.node? l' := by
  by_cases h0 : l' = []
  · subst h0; simp [node?, hl.symm]
  · simp only [node?, erase, h0, if_false, lookup_without]

/-- Names are bad one by one. -/
theorem badName?_append {l k : Location} :
    badName? (l ++ k) = none ↔ badName? l = none ∧ badName? k = none := by
  have hnone : ∀ l : Location, badName? l = none ↔
      ∀ name ∈ l, '\x00' ∉ name.toList ∧ name.utf8ByteSize ≤ nameLimit := by
    intro l
    unfold badName?
    simp only [List.any_eq_true, List.contains_iff_mem, decide_eq_true_eq]
    split
    · rename_i h
      obtain ⟨x, hx, hc⟩ := h
      simp only [reduceCtorEq, false_iff]
      exact fun hall => (hall x hx).1 hc
    · rename_i h
      split
      · rename_i h'
        obtain ⟨x, hx, hc⟩ := h'
        simp only [reduceCtorEq, false_iff]
        intro hall
        have := (hall x hx).2
        omega
      · rename_i h'
        simp only [true_iff]
        intro x hx
        refine ⟨fun hc => h ⟨x, hx, hc⟩, ?_⟩
        by_contra hlt
        exact h' ⟨x, hx, by omega⟩
  simp only [hnone, List.mem_append, or_imp, forall_and]
  exact ⟨fun h => ⟨⟨h.1.1, h.2.1⟩, h.1.2, h.2.2⟩, fun h => ⟨⟨h.1.1, h.2.1⟩, h.1.2, h.2.2⟩⟩

/-! ## Directories -/

/-- **A directory with nothing in it but files**, and those by their names. -/
structure Folder (d : Disk) (here : Location) (f : String → Option ℕ) : Prop where
  ways : ∀ way, way <+: here → d.node? way = some .directory
  files : ∀ name, d.node? (here ++ [name]) = (f name).map .file
  below : ∀ name rest, rest ≠ [] → d.node? (here ++ name :: rest) = none

theorem not_prefix_self (here : Location) (name : String) (rest : List String) :
    ¬ here ++ name :: rest <+: here := by
  intro h
  have := h.length_le
  rw [List.length_append, List.length_cons] at this
  omega

namespace Folder

theorem congr (hf : Folder d here f) (h : d'.nodes = d.nodes) : Folder d' here f := by
  refine ⟨fun way hw => ?_, fun name => ?_, fun name rest hr => ?_⟩
  · rw [node?_congr h]; exact hf.ways way hw
  · rw [node?_congr h]; exact hf.files name
  · rw [node?_congr h]; exact hf.below name rest hr

theorem put (hf : Folder d here f) (name : String) (n : ℕ) :
    Folder (d.put (here ++ [name]) (.file n)) here (update f name (some n)) := by
  have hne : here ++ [name] ≠ [] := by simp
  refine ⟨fun way hw => ?_, fun other => ?_, fun other rest hr => ?_⟩
  · have : way ≠ here ++ [name] := by
      rintro rfl
      exact not_prefix_self here name [] hw
    rw [node?_put hne, if_neg this]
    exact hf.ways way hw
  · rw [node?_put hne]
    by_cases ho : other = name
    · subst ho; simp
    · simp [ho, hf.files other]
  · have : here ++ other :: rest ≠ here ++ [name] := by simp [hr]
    rw [node?_put hne, if_neg this]
    exact hf.below other rest hr

theorem erase (hf : Folder d here f) (name : String) :
    Folder (d.erase (here ++ [name])) here (update f name none) := by
  have hne : here ++ [name] ≠ [] := by simp
  refine ⟨fun way hw => ?_, fun other => ?_, fun other rest hr => ?_⟩
  · have : way ≠ here ++ [name] := by
      rintro rfl
      exact not_prefix_self here name [] hw
    rw [node?_erase hne, if_neg this]
    exact hf.ways way hw
  · rw [node?_erase hne]
    by_cases ho : other = name
    · subst ho; simp
    · simp [ho, hf.files other]
  · have : here ++ other :: rest ≠ here ++ [name] := by simp [hr]
    rw [node?_erase hne, if_neg this]
    exact hf.below other rest hr

theorem node? (hf : Folder d here f) (hp : p.Leads here name) :
    d.node? p.location = (f name).map .file := by
  rw [hp.location]; exact hf.files name

theorem present (hf : Folder d here f) (hp : p.Leads here name) :
    d.present p = (f name).isSome := by
  unfold Disk.present
  rw [hf.node? hp]
  cases f name with
  | none => rfl
  | some n => exact hp.endsInName

theorem opened (hf : Folder d here f) (hp : p.Leads here name) (hn : f name = some n) :
    d.opened p = .ok (.file n) := by
  have hpres := hf.present hp
  simp [Disk.opened, hf.node? hp, hn, hpres]

theorem contents? (hf : Folder d here f) (hp : p.Leads here name) (hn : f name = some n) :
    d.contents? p = some (d.file n).contents := by
  simp [Disk.contents?, hf.opened hp hn, Disk.read, Except.toOption]

/-- **A file that is made** is empty, and has a number of its own. -/
theorem create (hf : Folder d here f) (hp : p.Leads here name) (hb : badName? p.location = none)
    (hn : f name = none) : ∃ d', d.create p = .ok (d.files.size, d') ∧
      Folder d' here (update f name (some d.files.size)) ∧ d'.files = d.files.push {} := by
  have hdir : d.noDirectory? p.location = none := by
    simp [noDirectory?, hp.location, hf.ways here (List.prefix_refl _)]
  have hf' : Folder { d with files := d.files.push {} } here f := hf.congr rfl
  refine ⟨_, ?_, hf'.put name _, rfl⟩
  simp only [Disk.create, hb, hf.node? hp, hn, hdir, hp.endsInName, Option.map_none, if_true]
  rw [hp.location]

theorem createEmpty (hf : Folder d here f) (hp : p.Leads here name)
    (hb : badName? p.location = none) (hn : f name = none) :
    ∃ d', d.createEmpty p = .ok (d.files.size, d') ∧
      Folder d' here (update f name (some d.files.size)) ∧ d'.files = d.files.push {} := by
  obtain ⟨d', hc, hf', hfiles⟩ := hf.create hp hb hn
  have hfile : (d'.file d.files.size).full = false := by rw [file_push_last hfiles]
  refine ⟨d'.setFile d.files.size {}, by simp [Disk.createEmpty, hc, hfile], hf'.congr rfl, ?_⟩
  rw [show (d'.setFile d.files.size {}).files = (d.files.push {}).setIfInBounds d.files.size {} by
    rw [← hfiles]; rfl]
  exact Array.toList_inj.1 (by simp)

/-- **A file that is renamed** stands under the other name only. -/
theorem rename (hf : Folder d here f) (hp : p.Leads here name) (hq : q.Leads here other)
    (hn : f name = some n) (ho : f other = none) : ∃ d', d.rename p q = .ok d' ∧
      Folder d' here (update (update f name none) other (some n)) ∧ d'.files = d.files := by
  refine ⟨_, ?_, (hf.erase name).put other n, rfl⟩
  simp only [Disk.rename, hf.node? hp, hf.node? hq, hn, ho, Option.map_some, Option.map_none]
  rw [hp.location, hq.location]

/-- **A file that is removed** leaves its name. -/
theorem remove (hf : Folder d here f) (hp : p.Leads here name) (hn : f name = some n) :
    ∃ d', d.remove p = .ok d' ∧ Folder d' here (update f name none) ∧ d'.files = d.files := by
  refine ⟨_, ?_, hf.erase name, rfl⟩
  simp only [Disk.remove, hf.opened hp hn]
  rw [hp.location]

end Folder

/-! ## Directories on the way -/

/-- Directories that are there need not be made. -/
theorem makeDirectoriesFrom_there : ∀ (rest way : Location),
    (∀ w, w <+: way ++ rest → d.node? w = some .directory) →
      makeDirectoriesFrom way rest d = .ok d := by
  intro rest
  induction rest with
  | nil => intro way _; rfl
  | cons name rest ih =>
    intro way h
    have hall : ∀ w, w <+: way ++ [name] ++ rest → d.node? w = some .directory := by
      simpa using h
    have hdir := hall (way ++ [name]) (List.prefix_append _ _)
    simp only [makeDirectoriesFrom, hdir]
    exact ih _ hall

/-- **Making directories** changes nothing that is not on the way. -/
theorem makeDirectoriesFrom_spec : ∀ (rest way : Location) (d : Disk),
    makeDirectoriesFrom way rest d = .ok d' → (∀ w, w <+: way → d.node? w = some .directory) →
      d'.files = d.files ∧ (∀ w, w <+: way ++ rest → d'.node? w = some .directory) ∧
        ∀ l, ¬ l <+: way ++ rest → d'.node? l = d.node? l := by
  intro rest
  induction rest with
  | nil =>
    intro way d h hway
    cases h
    exact ⟨rfl, by simpa using hway, fun _ _ => rfl⟩
  | cons name rest ih =>
    intro way d h hway
    have hsnoc : way ++ name :: rest = way ++ [name] ++ rest := by simp
    rw [hsnoc]
    simp only [makeDirectoriesFrom] at h
    cases hx : d.node? (way ++ [name]) with
    | none =>
      rw [hx] at h
      have hne : way ++ [name] ≠ [] := by simp
      obtain ⟨hfiles, hdirs, hothers⟩ := ih _ _ h fun w hw => by
        rw [node?_put hne]
        rcases List.prefix_concat_iff.1 hw with rfl | hw
        · simp
        · split
          · rfl
          · exact hway w hw
      refine ⟨hfiles, hdirs, fun l hl => ?_⟩
      have : l ≠ way ++ [name] := by
        rintro rfl
        exact hl (List.prefix_append _ _)
      rw [hothers l hl, node?_put hne, if_neg this]
    | some x =>
      rw [hx] at h
      cases x with
      | file n => cases h
      | directory =>
        refine ih _ _ h fun w hw => ?_
        rcases List.prefix_concat_iff.1 hw with rfl | hw
        · exact hx
        · exact hway w hw

/-- A path to a file has a directory before it, or the file is where the program runs. -/
theorem Path.Leads.parent? (h : p.Leads here name) :
    (p.parent? = none ∧ here = []) ∨ ∃ q, p.parent? = some q ∧ q.location = here := by
  obtain ⟨hn, before, hp, rfl⟩ := h
  unfold Path.parent?
  rw [hp, Path.trimmed_snoc hn]
  cases before with
  | nil => exact .inl ⟨rfl, rfl⟩
  | cons a rest =>
    refine .inr ⟨⟨Path.rooted (Path.trimmed (a :: rest))⟩, ?_, ?_⟩
    · cases hr : rest ++ [name] with
      | nil => simp at hr
      | cons b l =>
        have : (a :: rest ++ [name]).dropLast = a :: rest := List.dropLast_concat
        simp only [List.cons_append, hr] at this ⊢
        rw [this]
    · rw [← Path.folder_trimmed (a :: rest)]
      rcases Path.trimmed_last a rest with h | ⟨ps, x, h, -⟩
      · by_cases ha : a = ""
        · subst ha; simp [h, Path.rooted, Path.location, Path.folder, Path.walk, Path.idle]
        · simp [h, Path.rooted, ha, Path.location, Path.folder]
      · have hroot : Path.rooted (a :: (ps ++ [x])) = a :: (ps ++ [x]) := by simp [Path.rooted]
        rw [h, hroot]
        unfold Path.location
        cases hps : ps ++ [x] with
        | nil => simp at hps
        | cons y ys =>
          by_cases ha : a = ""
          · subst ha; simp [Path.folder]
          · simp [Path.folder, ha]

end Logging.Disk
