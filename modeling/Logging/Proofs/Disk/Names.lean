import Mathlib.Data.List.TakeWhile
import Logging.Disk.Path

/-!
# Paths to files in one directory

* `Path.Leads`: a path leads to the file of that name in that directory.
* `Path.Leads.withFileName`, `Path.Leads.suffixed`: so does the path with another name, or with
  something behind the name.
* `Path.location_of_fileName?`, `Path.location_push`: every path leads to its last name, and one name
  further with a name behind it.
* `splitName_spec`: a file name is its stem and its extension, which has no other point.
-/

namespace Logging.Disk

/-- A name that can be that of a file. -/
def Ordinary (name : String) : Prop := Path.idle name = false ∧ name ≠ ".."

/-- A name of three characters or more can be that of a file. -/
theorem ordinary_of_length {name : String} (h : 3 ≤ name.length) : Ordinary name := by
  have hne : ∀ s : String, s.length < 3 → name ≠ s := by
    rintro s hs rfl
    omega
  refine ⟨?_, hne _ (by decide)⟩
  simp only [Path.idle, Bool.or_eq_false_iff, decide_eq_false_iff_not]
  exact ⟨hne _ (by decide), hne _ (by decide)⟩

namespace Path

/-- The directory that some pieces lead to. -/
def folder : List String → Location
  | "" :: rest => rest.foldl walk [""]
  | ps => ps.foldl walk []

/-- **The path leads to the file of that name in that directory.** -/
def Leads (p : Path) (here : Location) (name : String) : Prop :=
  Ordinary name ∧ ∃ before, p.pieces = before ++ [name] ∧ folder before = here

variable {p : Path} {here : Location} {name : String}

theorem walk_idle {piece : String} (h : idle piece) (way : Location) : walk way piece = way := by
  simp [walk, h]

theorem walk_name (h : Ordinary name) (way : Location) : walk way name = way ++ [name] := by
  simp [walk, h.1, h.2]

theorem ne_empty (h : Ordinary name) : name ≠ "" := by
  rintro rfl
  simp [Ordinary, idle] at h

/-- A path ends at its last name. -/
theorem Leads.location (h : p.Leads here name) : p.location = here ++ [name] := by
  obtain ⟨hn, before, hp, rfl⟩ := h
  unfold Path.location
  rw [hp]
  cases before with
  | nil => simp [folder, walk_name hn]
  | cons a rest =>
    by_cases ha : a = ""
    · subst ha
      cases rest with
      | nil => simp [folder, walk_name hn]
      | cons b rest => simp [folder, walk_name hn]
    · simp [folder, ha, walk_name hn]

theorem Leads.endsInName (h : p.Leads here name) : p.endsInName := by
  obtain ⟨hn, before, hp, -⟩ := h
  simp [Path.endsInName, hp, hn.1, hn.2]

/-- Every path that ends in a name leads to a file of that name. -/
theorem leads_of_endsInName (h : p.endsInName) :
    ∃ here name, p.Leads here name ∧ p.pieces.getLast? = some name := by
  unfold Path.endsInName at h
  split at h
  · rename_i name hl
    obtain ⟨before, hp⟩ := List.getLast?_eq_some_iff.1 hl
    refine ⟨folder before, name, ⟨?_, before, hp, rfl⟩, hl⟩
    simpa [Ordinary] using h
  · simp at h

/-! ## Other names in the same directory -/

/-- Nothing is cut from pieces that end in a name. -/
theorem trimmed_snoc (hn : Ordinary name) (before : List String) :
    trimmed (before ++ [name]) = before ++ [name] := by
  cases before with
  | nil => simp [trimmed]
  | cons a rest => simp [trimmed, hn.1]

theorem foldl_walk_idle : ∀ (l : List String) (way : Location), (∀ x ∈ l, idle x) →
    l.foldl walk way = way := by
  intro l
  induction l with
  | nil => intro way _; rfl
  | cons x l ih =>
    intro way hl
    rw [List.foldl_cons, walk_idle (hl x List.mem_cons_self)]
    exact ih way fun y hy => hl y (List.mem_cons_of_mem _ hy)

/-- The pieces that are cut lead nowhere. -/
theorem foldl_walk_cut (rest : List String) (way : Location) :
    (rest.reverse.dropWhile idle).reverse.foldl walk way = rest.foldl walk way := by
  set kept := (rest.reverse.dropWhile idle).reverse with hkept
  have hsplit : rest = kept ++ (rest.reverse.takeWhile idle).reverse := by
    rw [hkept, ← List.reverse_append, List.takeWhile_append_dropWhile, List.reverse_reverse]
  have hidle : ∀ x ∈ (rest.reverse.takeWhile idle).reverse, idle x := fun x hx =>
    List.mem_takeWhile_imp (List.mem_reverse.1 hx)
  calc kept.foldl walk way
      = (rest.reverse.takeWhile idle).reverse.foldl walk (kept.foldl walk way) :=
        (foldl_walk_idle _ _ hidle).symm
    _ = rest.foldl walk way := by rw [← List.foldl_append, ← hsplit]

theorem folder_trimmed (ps : List String) : folder (trimmed ps) = folder ps := by
  cases ps with
  | nil => rfl
  | cons a rest =>
    by_cases ha : a = ""
    · subst ha; exact foldl_walk_cut rest _
    · simpa [trimmed, folder, ha] using foldl_walk_cut rest (walk [] a)

/-- What is left after cutting ends in a name, except for the first piece. -/
theorem trimmed_last (a : String) (rest : List String) :
    trimmed (a :: rest) = [a] ∨
      ∃ ps x, trimmed (a :: rest) = a :: (ps ++ [x]) ∧ idle x = false := by
  simp only [trimmed]
  cases hd : rest.reverse.dropWhile idle with
  | nil => exact .inl rfl
  | cons x l =>
    refine .inr ⟨l.reverse, x, by simp, ?_⟩
    have := List.head?_dropWhile_not idle rest.reverse
    rw [hd] at this
    simpa using this

/-- The last name is exchanged, and pieces before it that lead nowhere may be cut. -/
theorem withFileName_pieces (hn : Ordinary name) {before : List String}
    (hp : p.pieces = before ++ [name]) (other : String) :
    (p.withFileName other).pieces = trimmed before ++ [other] := by
  have hname : p.fileName? = some name := by
    simp [fileName?, hp, trimmed_snoc hn, hn.1, hn.2]
  cases before with
  | nil =>
    have hparent : p.parent? = none := by simp [parent?, hp, trimmed]
    simp [withFileName, hname, hparent, trimmed]
  | cons a rest =>
    have hparent : p.parent? = some ⟨rooted (trimmed (a :: rest))⟩ := by
      unfold parent?
      rw [hp, trimmed_snoc hn]
      cases hr : rest ++ [name] with
      | nil => simp at hr
      | cons b l =>
        have : (a :: rest ++ [name]).dropLast = a :: rest := List.dropLast_concat
        simp only [List.cons_append, hr] at this ⊢
        rw [this]
    simp only [withFileName, hname, hparent, push]
    rcases trimmed_last a rest with h | ⟨ps, x, h, hx⟩
    · by_cases ha : a = ""
      · subst ha; simp [h, rooted]
      · simp [h, rooted, ha]
    · have hx' : x ≠ "" := by
        rintro rfl
        simp [idle] at hx
      have hroot : rooted (a :: (ps ++ [x])) = a :: (ps ++ [x]) := by simp [rooted]
      have hlast : (a :: (ps ++ [x])).getLast? = some x := by
        rw [← List.cons_append]; exact List.getLast?_concat
      simp only [h, hroot, hlast, Option.some.injEq, hx', if_false]

/-- **The path with another name** leads to the file of that name in the same directory. -/
theorem Leads.withFileName (h : p.Leads here name) {other : String} (ho : Ordinary other) :
    (p.withFileName other).Leads here other := by
  obtain ⟨hn, before, hp, rfl⟩ := h
  exact ⟨ho, trimmed before, withFileName_pieces hn hp other, folder_trimmed before⟩

/-- **The path with something behind it** leads to the file of that longer name. -/
theorem Leads.suffixed (h : p.Leads here name) {s : String} (hs : 3 ≤ s.length) :
    (p.suffixed s).Leads here (name ++ s) := by
  obtain ⟨-, before, hp, rfl⟩ := h
  refine ⟨ordinary_of_length (by rw [String.length_append]; omega), before, ?_, rfl⟩
  simp [Path.suffixed, hp]

theorem Leads.fileName? (h : p.Leads here name) : p.fileName? = some name := by
  obtain ⟨hn, before, hp, -⟩ := h
  simp [Path.fileName?, hp, trimmed_snoc hn, hn.1, hn.2]

/-! ## Where a path leads -/

/-- One more piece on the way, unless it is an empty one after nothing. -/
theorem folder_snoc {before : List String} {x : String} (h : before ≠ [] ∨ x ≠ "") :
    folder (before ++ [x]) = walk (folder before) x := by
  cases before with
  | nil =>
    have hx : x ≠ "" := by simpa using h
    simp [folder, hx]
  | cons a rest =>
    by_cases ha : a = ""
    · subst ha
      simp [folder]
    · simp [folder, ha]

/-- An only piece that is empty is not the root. -/
theorem location_eq_folder (h : p.pieces ≠ [""]) : p.location = folder p.pieces := by
  unfold Path.location
  split
  · rename_i q rest hp
    rw [hp]
    rfl
  · rename_i ps hmore
    cases hp : p.pieces with
    | nil => rfl
    | cons a rest =>
      by_cases ha : a = ""
      · subst ha
        cases rest with
        | nil => exact absurd hp h
        | cons b rest => exact absurd hp (hmore b rest)
      · simp [folder, ha]

/-- **A path leads to its last name**, if it has one. -/
theorem location_of_fileName? (h : p.fileName? = some name) :
    ∃ here, p.location = here ++ [name] := by
  unfold Path.fileName? at h
  split at h
  · rename_i x hlast
    split at h
    · cases h
    · rename_i hx
      cases h
      rw [not_or, Bool.not_eq_true] at hx
      obtain ⟨before, htrimmed⟩ := List.getLast?_eq_some_iff.1 hlast
      have hpieces : p.pieces ≠ [""] := by
        intro he
        rw [he] at hlast
        have hempty : name = "" := by simpa [trimmed, eq_comm] using hlast
        exact ne_empty hx hempty
      -- the pieces that are cut lead nowhere
      refine ⟨folder before, ?_⟩
      rw [location_eq_folder hpieces, ← folder_trimmed, htrimmed, folder_snoc (.inr (ne_empty hx)),
        walk_name hx]
  · cases h

/-- **A path with a name behind it** leads one name further. -/
theorem location_push (hn : Ordinary name) : (p.push name).location = p.location ++ [name] := by
  unfold Path.push
  split
  · rename_i hlast
    obtain ⟨before, hp⟩ := List.getLast?_eq_some_iff.1 hlast
    have hleads : Leads ⟨p.pieces.dropLast ++ [name]⟩ (folder before) name :=
      ⟨hn, before, by simp [hp], rfl⟩
    rw [hleads.location]
    -- the empty piece leads nowhere
    by_cases hb : before = []
    · subst hb
      simp [Path.location, hp, folder, walk, idle]
    · rw [location_eq_folder (by simpa [hp] using hb), hp, folder_snoc (.inl hb), walk_idle rfl]
  · rename_i hlast
    have hleads : Leads ⟨p.pieces ++ [name]⟩ (folder p.pieces) name := ⟨hn, p.pieces, rfl, rfl⟩
    have hpieces : p.pieces ≠ [""] := by
      intro he
      simp [he] at hlast
    rw [hleads.location, location_eq_folder hpieces]

end Path

/-- **A name is its stem and its extension**: the stem is not empty, and the extension is empty or
has one point, at its beginning. -/
theorem splitName_spec {name : String} (hn : Ordinary name) :
    ∃ stem extension, splitName name = (stem, extension) ∧ name = stem ++ extension ∧
      0 < stem.length ∧
      (extension = "" ∨ ∃ e : List Char, '.' ∉ e ∧ extension.toList = '.' :: e) := by
  have hpos : 0 < name.length := by
    rw [Nat.pos_iff_ne_zero]
    intro h
    exact Path.ne_empty hn (by simpa using h)
  unfold splitName
  have hsplit := List.takeWhile_append_dropWhile (p := (· ≠ '.')) (l := name.toList.reverse)
  cases hd : name.toList.reverse.dropWhile (· ≠ '.') with
  | nil => exact ⟨name, "", by simp only [hd], by simp, hpos, .inl rfl⟩
  | cons c stem =>
    have hc : c = '.' := by
      have := List.head?_dropWhile_not (· ≠ '.') name.toList.reverse
      rw [hd] at this
      simpa using this
    subst hc
    by_cases hs : stem = [] ∨ name = ".."
    · exact ⟨name, "", by simp only [hd, hs, if_true], by simp, hpos, .inl rfl⟩
    · set e := (name.toList.reverse.takeWhile (· ≠ '.')).reverse with he
      rw [hd] at hsplit
      refine ⟨String.ofList stem.reverse, String.ofList ('.' :: e), ?_, ?_, ?_,
        .inr ⟨e, ?_, by simp⟩⟩
      · simp only [hd, hs, if_false, he]
      · rw [← String.toList_inj, ← List.reverse_inj, ← hsplit, he]
        simp
      · have : stem ≠ [] := fun h => hs (.inl h)
        simpa [List.length_pos_iff] using this
      · intro h
        have := List.mem_takeWhile_imp (List.mem_reverse.1 (he ▸ h))
        simp at this

end Logging.Disk
