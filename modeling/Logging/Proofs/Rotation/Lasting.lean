import Logging.Proofs.Rotation.Packing

/-!
# What rotation leaves alone

The operations of a rotating file go by names that the template gives, and a disk may hold anything
under them. What they leave alone can be said of every disk and every name.

* `Disk.SameFiles`: every file has the names that it had, and no file was written.
* `Disk.Touches`: only certain files were written or named anew.
* `Disk.Known`: every name leads to a file that is there.
* `openLog_fresh`: **a log file that is opened under a free name is new and empty.**
* `RotatingFile.retire_touches`: **retiring a file touches nothing but what goes by the name of the
  temporary file.**
* `RotatingFile.rotate_eq`: what a rotation comes to.
-/

namespace Logging

namespace Disk

variable {d d' d'' : Disk} {k n : ℕ} {p q : Path} {l l' : Location} {x : Node} {T T' : ℕ → Prop}

/-! ## Directories are made -/

/-- **Every file has the names that it had**, and none was written. There may be more directories. -/
structure SameFiles (d d' : Disk) : Prop where
  files : d'.files = d.files
  names : ∀ l n, d'.node? l = some (.file n) ↔ d.node? l = some (.file n)
  directories : ∀ l, d.node? l = some .directory → d'.node? l = some .directory

theorem SameFiles.refl (d : Disk) : SameFiles d d := ⟨rfl, fun _ _ => Iff.rfl, fun _ h => h⟩

theorem SameFiles.trans (h : SameFiles d d') (h' : SameFiles d' d'') : SameFiles d d'' :=
  ⟨h'.files.trans h.files, fun l n => (h'.names l n).trans (h.names l n),
    fun l hl => h'.directories l (h.directories l hl)⟩

theorem sameFiles_tick (d : Disk) : SameFiles d d.tick :=
  ⟨rfl, fun _ _ => Iff.rfl, fun _ hl => hl⟩

/-- A directory is put where nothing stood. -/
theorem sameFiles_put (hl : l ≠ []) (h : d.node? l = none) : SameFiles d (d.put l .directory) := by
  refine ⟨rfl, fun l' n => ?_, fun l' hdir => ?_⟩
  · rw [node?_put hl]
    split
    · rename_i he
      subst he
      simp [h]
    · rfl
  · rw [node?_put hl]
    split
    · rfl
    · exact hdir

/-- **Making directories** replaces no file. -/
theorem makeDirectoriesFrom_same : ∀ (rest way : Location) (d : Disk),
    makeDirectoriesFrom way rest d = .ok d' → SameFiles d d' := by
  intro rest
  induction rest with
  | nil =>
    intro way d h
    cases h
    exact .refl _
  | cons name rest ih =>
    intro way d h
    simp only [makeDirectoriesFrom] at h
    cases hx : d.node? (way ++ [name]) with
    | none =>
      rw [hx] at h
      exact (sameFiles_put (by simp) hx).trans (ih _ _ h)
    | some x =>
      rw [hx] at h
      cases x with
      | file n => cases h
      | directory => exact ih _ _ h

theorem makeDirectories_same (h : d.makeDirectories p = .ok d') : SameFiles d d' := by
  unfold makeDirectories at h
  split at h
  · cases h
  · exact makeDirectoriesFrom_same _ _ _ h

/-! ## Names of files -/

theorem ne_nil_of_file (h : d.node? l = some (.file k)) : l ≠ [] := by
  rintro rfl
  simp [node?] at h

/-- A name of a file was that already, or it was put. -/
theorem node?_of_put (h : (d.put l x).node? l' = some (.file k)) :
    (l' = l ∧ x = .file k) ∨ d.node? l' = some (.file k) := by
  have hl' := ne_nil_of_file h
  by_cases hl : l = []
  · subst hl
    have hne : (l' == ([] : Location)) = false := by simpa using hl'
    simp only [node?, if_neg hl', put, List.lookup_append, lookup_without, List.lookup_cons, hne,
      List.lookup_nil, Option.or_none] at h ⊢
    exact .inr h
  · rw [node?_put hl] at h
    split at h
    · rename_i he
      exact .inl ⟨he, Option.some_inj.1 h⟩
    · exact .inr h

/-- A name of a file was that before another was taken away. -/
theorem node?_of_erase (h : (d.erase l).node? l' = some (.file k)) :
    d.node? l' = some (.file k) := by
  have hl' := ne_nil_of_file h
  simp only [node?, if_neg hl', erase, lookup_without] at h ⊢
  split at h
  · cases h
  · exact h

/-- **Only these files were touched**: the others are as they were and have no new names. There may
be new files. -/
structure Touches (T : ℕ → Prop) (d d' : Disk) : Prop where
  size : d.files.size ≤ d'.files.size
  same : ∀ k, k < d.files.size → ¬ T k → d'.file k = d.file k
  names : ∀ l k, d'.node? l = some (.file k) →
    d.node? l = some (.file k) ∨ T k ∨ (d.files.size ≤ k ∧ k < d'.files.size)

/-- No file is touched. -/
def Untouched : ℕ → Prop := fun _ => False

theorem Touches.refl (T : ℕ → Prop) (d : Disk) : Touches T d d :=
  ⟨Nat.le_refl _, fun _ _ _ => rfl, fun _ _ h => .inl h⟩

/-- A file that is touched later was touched before, or is new. -/
theorem Touches.trans (h : Touches T d d') (h' : Touches T' d' d'')
    (hT : ∀ k, T' k → T k ∨ (d.files.size ≤ k ∧ k < d'.files.size)) : Touches T d d'' := by
  refine ⟨Nat.le_trans h.size h'.size, fun k hk hTk => ?_, fun l k hl => ?_⟩
  · have hTk' : ¬ T' k := fun hk' => by
      rcases hT k hk' with h₁ | h₁
      · exact hTk h₁
      · omega
    exact (h'.same k (Nat.lt_of_lt_of_le hk h.size) hTk').trans (h.same k hk hTk)
  · have hsize := h'.size
    rcases h'.names l k hl with h₁ | h₁ | h₁
    · rcases h.names l k h₁ with h₂ | h₂ | h₂
      · exact .inl h₂
      · exact .inr (.inl h₂)
      · exact .inr (.inr ⟨h₂.1, by omega⟩)
    · rcases hT k h₁ with h₂ | h₂
      · exact .inr (.inl h₂)
      · exact .inr (.inr ⟨h₂.1, by omega⟩)
    · have := h.size
      exact .inr (.inr ⟨by omega, h₁.2⟩)

theorem Touches.mono (h : Touches T d d') (hT : ∀ k, T k → T' k) : Touches T' d d' :=
  ⟨h.size, fun k hk hk' => h.same k hk fun hTk => hk' (hT k hTk), fun l k hl => by
    rcases h.names l k hl with h₁ | h₁ | h₁
    · exact .inl h₁
    · exact .inr (.inl (hT k h₁))
    · exact .inr (.inr h₁)⟩

/-- A name that leads to an older file that was not touched led to it before. -/
theorem Touches.name (h : Touches T d d') (hk : k < d.files.size) (hT : ¬ T k)
    (hl : d'.node? l = some (.file k)) : d.node? l = some (.file k) := by
  rcases h.names l k hl with h₁ | h₁ | h₁
  · exact h₁
  · exact absurd h₁ hT
  · omega

theorem SameFiles.touches (h : SameFiles d d') : Touches Untouched d d' :=
  ⟨by rw [h.files], fun k _ _ => by simp [file, h.files], fun l k hl => .inl ((h.names l k).1 hl)⟩

theorem touches_setFile (n : ℕ) (f : FileData) (d : Disk) : Touches (· = n) d (d.setFile n f) :=
  ⟨by simp [setFile], fun _ _ hk => file_setFile_ne hk f, fun _ _ hl => .inl hl⟩

/-- A new file gets a name. -/
theorem touches_made (l : Location) (d : Disk) : Touches Untouched d
    ({ d with files := d.files.push {} }.put l (.file d.files.size)) := by
  refine ⟨by simp [put], fun k hk _ => file_push_lt rfl hk, fun l' k hl => ?_⟩
  rcases node?_of_put hl with ⟨-, hx⟩ | hold
  · cases hx
    exact .inr (.inr ⟨Nat.le_refl _, by simp [put]⟩)
  · exact .inl hold

/-- **Every name leads to a file that is there.** -/
def Known (d : Disk) : Prop := ∀ l k, d.node? l = some (.file k) → k < d.files.size

theorem Known.touches (hd : d.Known) (h : Touches T d d') (hT : ∀ k, T k → k < d.files.size) :
    d'.Known := by
  intro l k hl
  have hsize := h.size
  rcases h.names l k hl with h₁ | h₁ | h₁
  · have := hd l k h₁
    omega
  · have := hT k h₁
    omega
  · exact h₁.2

theorem Known.only (hd : d.Known) (h : Only n d d') : d'.Known := by
  intro l k hl
  rw [node?_congr h.nodes] at hl
  rw [h.size]
  exact hd l k hl

/-! ## Operations on names -/

theorem remove_touches (h : d.remove p = .ok d') : Touches Untouched d d' ∧ d'.files = d.files := by
  unfold remove at h
  split at h
  · cases h
    exact ⟨⟨Nat.le_refl _, fun _ _ _ => rfl, fun _ _ hl => .inl (node?_of_erase hl)⟩, rfl⟩
  · cases h
  · cases h

/-- The file that stands under a path. -/
def At (d : Disk) (p : Path) (k : ℕ) : Prop := d.node? p.location = some (.file k)

theorem rename_touches (h : d.rename p q = .ok d') : Touches (d.At p) d d' := by
  unfold rename at h
  split at h
  · cases h
  · cases h
  · rename_i x y hx hsource _
    cases h
    refine ⟨Nat.le_refl _, fun _ _ _ => rfl, fun l k hl => ?_⟩
    -- the new name of the file that was renamed is the only new one
    rcases node?_of_put hl with ⟨-, rfl⟩ | hold
    · exact .inr (.inl hsource)
    · exact .inl (node?_of_erase hold)

/-- **Making an empty file**, or emptying one, touches that file only. -/
theorem createEmpty_touches (h : d.createEmpty p = .ok (n, d')) :
    (d.At p n ∨ n = d.files.size ∧ n < d'.files.size) ∧ d'.At p n ∧ Touches (d.At p) d d' := by
  unfold createEmpty at h
  split at h
  · cases h
  rename_i m d₁ hcreate
  simp only [Except.ok.injEq, Prod.mk.injEq] at h
  obtain ⟨rfl, rfl⟩ := h
  obtain ⟨hm, hat, htouch⟩ : (d.At p m ∨ m = d.files.size ∧ m < d₁.files.size) ∧ d₁.At p m ∧
      Touches Untouched d d₁ := by
    obtain ⟨-, ⟨hnode, rfl⟩ | ⟨hnode, rfl, rfl⟩⟩ := Sink.create_ok hcreate
    · exact ⟨.inl hnode, hnode, .refl _ _⟩
    · have hne : p.location ≠ [] := by
        intro he
        rw [he] at hnode
        simp [node?] at hnode
      refine ⟨.inr ⟨rfl, by simp [put]⟩, ?_, touches_made _ _⟩
      rw [At, node?_put hne, if_pos rfl]
  -- emptying the file touches no other
  have hempty : Touches (d.At p) d (d₁.setFile m {}) := by
    refine (htouch.mono fun _ => False.elim).trans (touches_setFile m {} d₁) ?_
    rintro k rfl
    rcases hm with hm | hm
    · exact .inl hm
    · exact .inr ⟨by omega, hm.2⟩
  split
  · exact ⟨hm, hat, htouch.mono fun _ => False.elim⟩
  · refine ⟨?_, hat, hempty⟩
    rcases hm with hm | hm
    · exact .inl hm
    · exact .inr ⟨hm.1, by simpa [setFile] using hm.2⟩

end Disk

namespace Sink

open Disk

variable {d d' : Disk} {p : Path} {w : Writer}

/-! ## A log file is opened -/

/-- What is on a disk on which a log file could be opened, besides new directories. -/
theorem openLog_any (h : openLog p d = (.ok w, d')) : p.endsInName ∧ w.pending = .empty ∧
    ∃ d₁, SameFiles d d₁ ∧
      ((d.At p w.file ∧ d' = d₁) ∨ (d₁.node? p.location = none ∧ w.file = d₁.files.size ∧
        d' = { d₁ with files := d₁.files.push {} }.put p.location (.file d₁.files.size))) := by
  obtain ⟨d₁, hmade, hcreate, hpending⟩ := openLog_ok h
  have hsame : SameFiles d d₁ := by
    rcases hmade with ⟨-, rfl⟩ | ⟨q, -, hq⟩
    · exact .refl _
    · exact makeDirectories_same hq
  obtain ⟨hends, ⟨hnode, rfl⟩ | ⟨hnone, hw, rfl⟩⟩ := create_ok hcreate
  · exact ⟨hends, hpending, d', hsame, .inl ⟨(hsame.names _ _).1 hnode, rfl⟩⟩
  · exact ⟨hends, hpending, d₁, hsame, .inr ⟨hnone, hw, by rw [hw]⟩⟩

/-- **A log file that cannot be opened** leaves every file and every name of one. -/
theorem openLog_error_same {e : Fault} (h : openLog p d = (.error e, d')) : SameFiles d d' := by
  rcases openLog_error h with rfl | ⟨q, -, hq⟩
  · exact .refl _
  · exact makeDirectories_same hq

/-- **Opening a log file** touches none. -/
theorem openLog_touches (h : openLog p d = (.ok w, d')) : Touches Untouched d d' := by
  obtain ⟨-, -, d₁, hsame, ⟨-, rfl⟩ | ⟨-, -, rfl⟩⟩ := openLog_any h
  · exact hsame.touches
  · exact hsame.touches.trans (touches_made _ _) fun _ => False.elim

/-- **A log file that is opened under a free name** is new and empty, and goes by that name only. -/
theorem openLog_fresh (hd : d.Known) (hfree : d.present p = false)
    (h : openLog p d = (.ok w, d')) : w.file = d.files.size ∧ w.file < d'.files.size ∧
      d'.file w.file = {} ∧ ∀ l, d'.node? l = some (.file w.file) → l = p.location := by
  obtain ⟨hends, -, d₁, hsame, ⟨hat, -⟩ | ⟨hnone, hw, rfl⟩⟩ := openLog_any h
  · -- a file under that name would have been seen
    rw [present, hat] at hfree
    simp [hends] at hfree
  · refine ⟨by rw [hw, hsame.files], by simp [hw, put], by rw [hw]; exact file_push_last rfl,
      fun l hl => ?_⟩
    rcases node?_of_put hl with ⟨he, -⟩ | hold
    · exact he
    · have hlt := hd l _ ((hsame.names l _).1 hold)
      rw [hw, hsame.files] at hlt
      omega

/-! ## A file is retired -/

/-- The temporary file of a compression. -/
def temporaryPath (p : Path) : Path := (packedPath p).suffixed ".tmp"

theorem remove_getD_touches (p : Path) (d : Disk) :
    Touches Untouched d ((d.remove p).toOption.getD d) := by
  cases h : d.remove p with
  | error r => exact .refl _ _
  | ok d' => exact (remove_touches h).1

/-- **Packing a file** touches the temporary one only. -/
theorem packFile_touches (p : Path) (d : Disk) :
    Touches (d.At (temporaryPath p)) d (packFile p d).2 := by
  unfold packFile
  cases ho : d.opened p with
  | error r => exact .refl _ _
  | ok source =>
    dsimp only
    cases hc : d.createEmpty ((packedPath p).suffixed ".tmp") with
    | error r => exact .refl _ _
    | ok made =>
      obtain ⟨n, d₁⟩ := made
      obtain ⟨hn, hat, h₁⟩ := createEmpty_touches hc
      dsimp only
      cases hr : d₁.read source with
      | error r => exact h₁.trans (remove_getD_touches _ _) fun _ => False.elim
      | ok c =>
        have hnew : ∀ k, k = n → d.At (temporaryPath p) k ∨
            (d.files.size ≤ k ∧ k < d₁.files.size) := by
          rintro k rfl
          rcases hn with hn | hn
          · exact .inl hn
          · exact .inr ⟨by omega, hn.2⟩
        have h₂ := h₁.trans (touches_setFile n { contents := c.pack } d₁) hnew
        have hsize : (d₁.setFile n { contents := c.pack }).files.size = d₁.files.size := by
          simp [setFile]
        dsimp only
        split
        · -- what is renamed is the temporary file
          rename_i d₂ hrename
          refine h₂.trans (rename_touches hrename) fun k hk => ?_
          rw [hsize]
          refine hnew k ?_
          have := Option.some_inj.1 (hk.symm.trans hat)
          exact Node.file.inj this
        · exact h₂.trans (remove_getD_touches _ _) fun _ => False.elim

theorem compressBackup_touches (p : Path) (d : Disk) :
    Touches (d.At (temporaryPath p)) d (compressBackup p d).2.2 := by
  have hpack := packFile_touches p d
  unfold compressBackup
  split
  · rename_i f d₁ he
    rw [he] at hpack
    exact hpack
  · rename_i d₁ he
    rw [he] at hpack
    split
    · rename_i d₂ hr
      exact hpack.trans (remove_touches hr).1 fun _ => False.elim
    · exact hpack

/-- Removing backups touches no file. -/
theorem prune_touches (most : ℕ) : ∀ (ps : List Path) (d : Disk),
    Touches Untouched d (prune most ps d).2.2 := by
  intro ps
  induction ps with
  | nil => intro d; exact .refl _ _
  | cons p ps ih =>
    intro d
    simp only [prune]
    split
    · exact .refl _ _
    · split
      · rename_i d₁ hr
        exact (remove_touches hr).1.trans (ih _) fun _ => False.elim
      · exact ih d

/-- **Retiring the current file** touches nothing but what goes by the name of the temporary file,
and that only to compress. -/
theorem RotatingFile.retire_touches (f : RotatingFile) (next : Path) (w : Writer) (d : Disk) :
    Touches (fun k => f.policy.compress ∧ d.At (temporaryPath f.path) k) d
      (f.retire next w d).2.2 := by
  have hback : Touches (fun k => f.policy.compress ∧ d.At (temporaryPath f.path) k) d
      (if f.policy.compress then compressBackup f.path d else (f.path, [], d)).2.2 := by
    split
    · rename_i hc
      exact (compressBackup_touches _ _).mono fun k hk => ⟨hc, hk⟩
    · exact .refl _ _
  unfold RotatingFile.retire
  simp only
  split
  · exact hback.trans (prune_touches _ _ _) fun _ => False.elim
  · exact hback

/-! ## A rotation -/

namespace RotatingFile

/-- The name of the next file changes nothing but what is tried for the one after it. -/
theorem nextPath_keeps (f : RotatingFile) (d : Disk) (p : Path) : ∃ base index,
    (f.nextPath d p).2 = { f with base := base, nextIndex := index } := by
  unfold nextPath
  split
  · exact ⟨p, 1, rfl⟩
  · split <;> exact ⟨_, _, rfl⟩

theorem expandTemplate_disk (template : String) (d : Disk) :
    (expandTemplate template d).2 = d.tick := by
  unfold expandTemplate
  dsimp only
  split <;> rfl

/-- A rotation whose steps succeed. -/
theorem rotate_eq {f f₁ : RotatingFile} {d₁ d₂ d₃ : Disk} {w₃ : Writer}
    (hflush : f.flushWriter d = (.ok (), f₁, d₁))
    (hexpand : expandTemplate f₁.policy.template d₁ = (.ok p, d₂))
    (hopen : openLog (f₁.nextPath d₂ p).1 d₂ = (.ok w₃, d₃)) :
    f.rotate d = (.ok (), (f₁.nextPath d₂ p).2.retire (f₁.nextPath d₂ p).1 w₃ d₃) := by
  unfold rotate
  rw [hflush]
  simp only [hexpand, hopen]

end RotatingFile

end Sink

end Logging
