import Logging.Proofs.Rotation.Series
import Logging.Proofs.Rotation.Shelf

/-!
# A rotating file follows its series

* `Tracks`: the rotating file and its disk hold what `Chunks` says.
* `Tracks.append`, `Tracks.flush`, `Tracks.rotate`: writing to the current file, flushing it and
  beginning a new one keep this.
* `Tracks.finds_iff`: **the search for the name of the next file comes to an end as long as there
  are numbers.**
-/

namespace Logging.Sink.RotatingFile

open Disk

variable {s : Place} {pol : RotationPolicy} {c : Chunks} {w : Writer} {old : List (Path × ℕ)}
  {f : RotatingFile} {d : Disk}

/-- Of so many full files the first that is kept. -/
def lowest (most : Option ℕ) (k : ℕ) : ℕ :=
  match most with
  | some n => k - n
  | none => 0

/-- How a series is kept does not change with time. -/
structure Steady (s : Place) (pol : RotationPolicy) : Prop where
  compress : pol.compress = s.compress
  ageless : pol.maxAgeMillis = none
  constant : ∀ t, ∃ text, Time.fill? pol.template t = some text ∧ .ofText text = s.path

/-- The system takes the names of the files up to that number. -/
def Fits (s : Place) (k : ℕ) : Prop := ∀ i, i ≤ k → i ≤ indexLimit →
  badName? (s.file i).location = none ∧
    (s.compress → badName? ((packedPath (s.file i)).suffixed ".tmp").location = none)

/-- **The rotating file follows its series**: `c` is what its files receive, `w` the writer of the
current one, and `old` are the full ones. -/
structure Tracks (s : Place) (pol : RotationPolicy) (c : Chunks) (w : Writer)
    (old : List (Path × ℕ)) (f : RotatingFile) (d : Disk) : Prop where
  policy : f.policy = pol
  base : f.base = s.path
  isOpen : f.closed = false
  path : f.path = s.file c.full.length
  index : f.nextIndex = min (c.full.length + 1) indexLimit
  limit : c.full.length ≤ indexLimit
  writer : f.writer = some w
  written : f.written = c.current.size
  takes : d.Takes w.file
  total : w.total d = { plain := c.current }
  oldKnown : ∀ e ∈ old, e.2 < d.files.size ∧ e.2 ≠ w.file
  oldContents : old.map (fun e => (d.file e.2).contents) = c.full.map fun b => { plain := b }
  oldPaths : old.map Prod.fst = (List.range c.full.length).map s.file
  oldNumbers : (old.map Prod.snd).Nodup
  backups : f.backups = (List.range' (lowest pol.maxBackups c.full.length)
    (c.full.length - lowest pol.maxBackups c.full.length)).map s.kept
  shelf : ∃ t, Shelf s d t (lowest pol.maxBackups c.full.length) c.full w.file

namespace Tracks

/-- Something happens in the current file only. -/
theorem congr (h : Tracks s pol c w old f d) {c' : Chunks} {w' : Writer} {d' : Disk} {n : ℕ}
    (hfull : c'.full = c.full) (hw : w'.file = w.file) (ho : Only w.file d d')
    (ht : d'.Takes w.file) (hn : n = c'.current.size)
    (htotal : w'.total d' = { plain := c'.current }) :
    Tracks s pol c' w' old { f with writer := some w', written := n } d' := by
  obtain ⟨t, hshelf⟩ := h.shelf
  exact
    { policy := h.policy, base := h.base, isOpen := h.isOpen, writer := rfl, written := hn
      path := by rw [hfull]; exact h.path
      index := by rw [hfull]; exact h.index
      limit := by rw [hfull]; exact h.limit
      takes := by rw [hw]; exact ht
      total := htotal
      oldKnown := by rw [hw, ho.size]; exact h.oldKnown
      oldContents := by
        rw [hfull, ← h.oldContents]
        exact List.map_congr_left fun e he => by rw [ho.others _ (h.oldKnown e he).2]
      oldPaths := by rw [hfull]; exact h.oldPaths
      oldNumbers := h.oldNumbers
      backups := by rw [hfull]; exact h.backups
      shelf := ⟨t, by rw [hfull, hw]; exact hshelf.congr ho⟩ }

/-- **A payload is written** to the current file. -/
theorem append (h : Tracks s pol c w old f d) (b : ByteArray) : ∃ w' f' d',
    f.append b d = (.ok (), f', d') ∧ w'.file = w.file ∧
      Tracks s pol { c with current := c.current ++ b } w' old f' d' := by
  obtain ⟨w', d', hw, hfile, ho, ht, htotal⟩ := Writer.write_works h.takes b
  refine ⟨w', { f with writer := some w', written := f.written + b.size }, d',
    by simp only [RotatingFile.append, h.writer, hw], hfile, h.congr rfl hfile ho ht ?_ ?_⟩
  · simp [h.written]
  · rw [htotal, h.total]; rfl

/-- **The current file is flushed.** -/
theorem flush (h : Tracks s pol c w old f d) : ∃ f' d',
    f.flushWriter d = (.ok (), f', d') ∧
      Tracks s pol c { w with pending := .empty } old f' d' := by
  obtain ⟨d', hw, ho, ht, htotal⟩ := Writer.flush_works h.takes
  have htotal' : ({ w with pending := .empty } : Writer).total d' = { plain := c.current } := by
    rw [← h.total, ← htotal]
    exact Contents.followed_empty _
  exact ⟨_, d', by simp only [flushWriter, h.writer, hw], h.congr rfl rfl ho ht h.written htotal'⟩

/-- Whether a new file is due depends on the sizes only. -/
theorem isDue_eq (h : Tracks s pol c w old f d) (hs : Steady s pol) (n : ℕ) :
    f.isDue n d = c.crowded pol.maxBytes n := by
  have hold : f.isOld d = false := by simp [isOld, h.policy, hs.ageless]
  cases hm : pol.maxBytes with
  | none => simp [isDue, isCrowded, Chunks.crowded, hold, h.policy, hm]
  | some most => simp [isDue, isCrowded, Chunks.crowded, hold, h.policy, h.written, hm]

/-! ## The next file -/

theorem numbered_eq (s : Place) {i : ℕ} (hi : 0 < i) : numbered s.path i = s.file i := by
  obtain ⟨k, rfl⟩ := Nat.exists_eq_succ_of_ne_zero (by omega : i ≠ 0)
  rfl

theorem indexLimit_pos : 0 < indexLimit := by decide

/-- **The search for the name of the next file comes to an end** as long as there are numbers. -/
theorem finds_iff (h : Tracks s pol c w old f d) (hs : Steady s pol) :
    (∃ i, f.nextIndex ≤ i ∧ i ≤ indexLimit ∧ f.isTaken d (numbered f.base i) = false) ↔
      c.full.length + 1 ≤ indexLimit := by
  obtain ⟨t, hshelf⟩ := h.shelf
  have hpos := indexLimit_pos
  constructor
  · rintro ⟨i, hlo, hi, hfree⟩
    by_contra hlt
    have hlimit := h.limit
    have hindex := h.index
    have hk : i = c.full.length := by omega
    -- the last number is that of the current file
    have htaken : f.isTaken d (s.file c.full.length) = true := by
      simp only [isTaken, hshelf.folder.present (s.file_leads _), hshelf.current,
        Option.isSome_some, Bool.true_or]
    rw [h.base, numbered_eq s (by omega), hk, htaken] at hfree
    cases hfree
  · -- the next number is free
    intro hlt
    refine ⟨c.full.length + 1, by rw [h.index]; omega, hlt, ?_⟩
    rw [h.base, numbered_eq s (by omega)]
    exact hshelf.next_not_taken (by rw [h.policy, hs.compress])

/-- The moment of a file name changes nothing else. -/
theorem tick (h : Tracks s pol c w old f d) : Tracks s pol c w old f d.tick := by
  obtain ⟨t, hshelf⟩ := h.shelf
  exact
    { policy := h.policy, base := h.base, isOpen := h.isOpen, path := h.path, index := h.index
      limit := h.limit, writer := h.writer, written := h.written
      takes := ⟨h.takes.known, h.takes.room⟩, total := h.total, oldKnown := h.oldKnown
      oldContents := h.oldContents, oldPaths := h.oldPaths, oldNumbers := h.oldNumbers
      backups := h.backups
      shelf := ⟨t, hshelf.congr ⟨rfl, rfl, fun _ _ => rfl⟩⟩ }

/-- A search whose first name is free ends at once. -/
theorem search_free {taken : Path → Bool} {p : Path} {i : ℕ} (h : taken (numbered p i) = false) :
    ∀ n, search taken p n i = (numbered p i, min (i + 1) indexLimit) := by
  intro n
  cases n with
  | zero => rfl
  | succ n => simp [search, h]

theorem expandTemplate_eq (hs : Steady s pol) (d : Disk) :
    expandTemplate pol.template d = (.ok s.path, d.tick) := by
  obtain ⟨text, ht, hp⟩ := hs.constant d.tick.reading
  simp [expandTemplate, ht, hp]

/-- A file that is not yet there goes by the number that is tried next. -/
theorem nextPath_eq (h : Tracks s pol c w old f d) (hs : Steady s pol)
    (hlt : c.full.length + 1 ≤ indexLimit) : f.nextPath d s.path =
      (s.file (c.full.length + 1),
        { f with nextIndex := min (c.full.length + 1 + 1) indexLimit }) := by
  obtain ⟨t, hshelf⟩ := h.shelf
  have hindex : f.nextIndex = c.full.length + 1 := by rw [h.index]; omega
  have hfree : f.isTaken d (numbered s.path (c.full.length + 1)) = false := by
    rw [numbered_eq s (by omega)]
    exact hshelf.next_not_taken (by rw [h.policy, hs.compress])
  simp only [nextPath, h.base, ne_eq, not_true_eq_false, false_and, if_false, hindex,
    search_free hfree]
  rw [numbered_eq s (by omega)]

/-- The oldest backups go, if there are too many. -/
theorem retained {cur : ℕ} {full : List ByteArray} {t : String → Option ℕ} {b : ByteArray}
    (h : Shelf s d t (lowest pol.maxBackups full.length) (full ++ [b]) cur) {bs : List Path}
    (hbs : bs = (List.range' (lowest pol.maxBackups full.length)
      (full.length - lowest pol.maxBackups full.length)).map s.kept) :
    ∃ d' t', (match pol.maxBackups with
        | some most => prune most (bs ++ [s.kept full.length]) d
        | none => (bs ++ [s.kept full.length], [], d)) =
          ((List.range' (lowest pol.maxBackups (full.length + 1))
            (full.length + 1 - lowest pol.maxBackups (full.length + 1))).map s.kept, [], d') ∧
        Shelf s d' t' (lowest pol.maxBackups (full.length + 1)) (full ++ [b]) cur ∧
        d'.files = d.files := by
  set lo := lowest pol.maxBackups full.length with hlo
  have hle : lo ≤ full.length := by
    rw [hlo]
    unfold lowest
    split <;> omega
  -- the new backup is the newest of them
  have hlist : bs ++ [s.kept full.length] =
      (List.range' lo (full.length + 1 - lo)).map s.kept := by
    rw [show full.length + 1 - lo = full.length - lo + 1 by omega, List.range'_1_concat,
      List.map_append, ← hbs, show lo + (full.length - lo) = full.length by omega]
    rfl
  rw [hlist]
  cases hm : pol.maxBackups with
  | none =>
    have hlo₀ : lo = 0 := by rw [hlo, hm]; rfl
    rw [hlo₀] at h
    exact ⟨d, t, by simp [lowest, hlo₀], h, rfl⟩
  | some most =>
    have hlo' : lo = full.length - most := by rw [hlo, hm]; rfl
    obtain ⟨d', t', hp, h', hfiles⟩ := Shelf.prune most (full.length + 1 - lo) lo d t h
      (by rw [List.length_append, List.length_singleton]; omega)
    have hfirst : lo + (full.length + 1 - lo - most) = full.length + 1 - most := by omega
    have hmany : full.length + 1 - lo - (full.length + 1 - lo - most) =
        full.length + 1 - (full.length + 1 - most) := by omega
    rw [hfirst, hmany] at hp
    rw [hfirst] at h'
    exact ⟨d', t', hp, h', hfiles⟩

/-- **A new file begins**: the current one becomes a backup. -/
theorem rotate (h : Tracks s pol c w old f d) (hs : Steady s pol)
    (hlt : c.full.length + 1 ≤ indexLimit) (hfits : Fits s (c.full.length + 1)) : ∃ w' f' d',
    f.rotate d = (.ok (), f', [], d') ∧
      Tracks s pol ⟨c.full ++ [c.current], .empty⟩ w'
        (old ++ [(s.file c.full.length, w.file)]) f' d' := by
  -- first what is kept back goes to the full file
  obtain ⟨f₁, d₁, hflush, h'⟩ := h.flush
  have h₁ := h'.tick
  obtain ⟨t, hshelf⟩ := h₁.shelf
  have hnames := hfits (c.full.length + 1) (Nat.le_refl _) hlt
  have htemporary := (hfits c.full.length (by omega) h.limit).2
  have hcont : (d₁.tick.file w.file).contents = { plain := c.current } := by
    rw [← h₁.total]
    exact (Contents.followed_empty _).symm
  -- then the next file is opened, the full one retired, and the oldest are removed
  obtain ⟨d₂, hopen, hfolder, hfiles⟩ := hshelf.opened hnames.1
  obtain ⟨d₃, t₃, hkeep, hshelf₃, hext⟩ :=
    hshelf.retired h₁.takes.known hcont hfolder hfiles htemporary
  obtain ⟨d₄, t₄, hprune, hshelf₄, hfiles₄⟩ := retained hshelf₃ h₁.backups
  set n := d₁.tick.files.size with hn
  have hold : Extends d₁.tick d₄ :=
    ((extends_push hfiles).trans hext).trans (extends_of_files hfiles₄)
  have hn₂ : n < d₂.files.size := by simp [hfiles, hn]
  -- the new file is empty all the while
  have hnew : d₄.file n = {} := by
    rw [(extends_of_files hfiles₄).old n (Nat.lt_of_lt_of_le hn₂ hext.size), hext.old n hn₂]
    exact file_push_last hfiles
  have hsize : d₂.size n = 0 := by
    simp only [Disk.size, file_push_last hfiles, hn]
    rfl
  -- what the rotating file has come to
  set f' : RotatingFile :=
    { f₁ with
      nextIndex := min (c.full.length + 1 + 1) indexLimit
      path := s.file (c.full.length + 1)
      writer := some { file := n }
      written := 0
      backups := (List.range' (lowest pol.maxBackups (c.full.length + 1))
        (c.full.length + 1 - lowest pol.maxBackups (c.full.length + 1))).map s.kept } with hf'
  have hretire : ({ f₁ with nextIndex := min (c.full.length + 1 + 1) indexLimit }).retire
      (s.file (c.full.length + 1)) { file := n } d₂ = (f', [], d₄) := by
    simp only [retire, hsize, h₁.policy, hs.compress, h₁.path, hkeep, hf']
    cases hm : pol.maxBackups with
    | none =>
      simp only [hm, Prod.mk.injEq, true_and] at hprune
      rw [hprune.1, hprune.2]
      rfl
    | some most => simp only [hm] at hprune ⊢; rw [hprune]; rfl
  have htemplate : expandTemplate f₁.policy.template d₁ = (.ok s.path, d₁.tick) := by
    rw [h₁.policy]; exact expandTemplate_eq hs d₁
  have hrotate : f.rotate d = (.ok (), f', [], d₄) := by
    simp only [RotatingFile.rotate, hflush, htemplate, h₁.nextPath_eq hs hlt, hopen, hretire]
  have hlen : (c.full ++ [c.current]).length = c.full.length + 1 := by simp
  refine ⟨{ file := n }, f', d₄, hrotate, ?_⟩
  exact
    { policy := h₁.policy, base := h₁.base, isOpen := h₁.isOpen, writer := rfl, written := rfl
      path := by rw [hlen]
      index := by rw [hlen]
      limit := by rw [hlen]; exact hlt
      takes := ⟨Nat.lt_of_lt_of_le hn₂ (by rw [hfiles₄]; exact hext.size), by rw [hnew]⟩
      total := by
        simp only [Writer.total, hnew]
        exact Contents.followed_empty _
      oldKnown := fun e he => by
        have hlt' : e.2 < n := by
          rcases List.mem_append.1 he with he | he
          · exact (h₁.oldKnown e he).1
          · rw [List.mem_singleton.1 he]; exact h₁.takes.known
        exact ⟨Nat.lt_of_lt_of_le hlt' hold.size, Nat.ne_of_lt hlt'⟩
      -- opening, retiring and removing leave the bytes of every older file alone
      oldContents := by
        rw [List.map_append, List.map_append, ← h₁.oldContents, List.map_singleton,
          List.map_singleton, hold.old _ h₁.takes.known, hcont]
        exact congrArg (· ++ _)
          (List.map_congr_left fun e he => by rw [hold.old _ (h₁.oldKnown e he).1])
      oldPaths := by
        rw [hlen, List.range_succ, List.map_append, List.map_append, h₁.oldPaths]
        rfl
      oldNumbers := by
        rw [List.map_append, List.nodup_append]
        refine ⟨h₁.oldNumbers, by simp, ?_⟩
        intro m hm m' hm'
        obtain ⟨e, he, rfl⟩ := List.mem_map.1 hm
        rw [List.mem_singleton.1 hm']
        exact (h₁.oldKnown e he).2
      backups := by rw [hlen]
      shelf := ⟨t₄, by rw [hlen]; exact hshelf₄⟩ }

end Tracks

end Logging.Sink.RotatingFile
