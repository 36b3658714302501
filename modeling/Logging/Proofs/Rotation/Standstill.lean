import Logging.Proofs.Rotation.Lasting

/-!
# A rotation that fails

A new file begins once the current one is written out and the next one is open. Where the system
refuses one of these, the rotating file stays as it was.

* `RotatingFile.Stays`: what stays, of the rotating file and of its disk.
* `RotatingFile.rotate_fails`: **wherever a rotation fails, all of that stays.**
* `RotatingFile.Delivers`: what was kept back reaches its file later.
* `failed_rotation_keeps_all`: **a payload that could not be written for want of a new file leaves
  everything as it was, and every byte that was written earlier is delivered once the system lets
  it.**
-/

namespace Logging.Sink

open Disk

namespace RotatingFile

variable {f f' : RotatingFile} {w : Writer} {d d' : Disk} {n : ℕ} {b : ByteArray} {c : Contents}

/-! ## What stays -/

/-- **A rotating file that writes by this writer is as it was**, and so is the disk. Only bytes that
were kept back may be in their file by now. -/
structure Stays (f : RotatingFile) (w : Writer) (d : Disk) (f' : RotatingFile) (d' : Disk) :
    Prop where
  policy : f'.policy = f.policy
  path : f'.path = f.path
  backups : f'.backups = f.backups
  written : f'.written = f.written
  closed : f'.closed = f.closed
  /-- Every file has the names that it had, and directories stay. -/
  names : ∀ l k, d'.node? l = some (.file k) ↔ d.node? l = some (.file k)
  directories : ∀ l, d.node? l = some .directory → d'.node? l = some .directory
  /-- No file is new, and none but the current one was written. -/
  size : d'.files.size = d.files.size
  others : ∀ k, k ≠ w.file → d'.file k = d.file k
  /-- The bytes that were kept back are behind the others in the current file, as far as they are
  not kept back still. -/
  held : ∃ w' moved, f'.writer = some w' ∧ w'.file = w.file ∧ w.pending = moved ++ w'.pending ∧
    (d'.file w.file).contents = (d.file w.file).contents.followed moved

/-- What the current file will hold is as it was. -/
theorem Stays.total (h : f.Stays w d f' d') :
    ∃ w', f'.writer = some w' ∧ w'.file = w.file ∧ w'.total d' = w.total d := by
  obtain ⟨w', moved, hw', hfile, hpending, hcont⟩ := h.held
  refine ⟨w', hw', hfile, ?_⟩
  calc w'.total d'
      = ((d.file w.file).contents.followed moved).followed w'.pending := by
        rw [Writer.total, hfile, hcont]
    _ = w.total d := by rw [Contents.followed_followed, ← hpending, Writer.total]

/-- More directories, and another name to be tried next, are no change. -/
theorem Stays.onward (h : f.Stays w d f' d') {d'' : Disk} (hd : SameFiles d' d'') (base : Path)
    (index : ℕ) : f.Stays w d { f' with base := base, nextIndex := index } d'' := by
  have hfile : ∀ k, d''.file k = d'.file k := fun k => by simp [Disk.file, hd.files]
  exact
    { policy := h.policy, path := h.path, backups := h.backups, written := h.written
      closed := h.closed
      names := fun l k => (hd.names l k).trans (h.names l k)
      directories := fun l hl => hd.directories l (h.directories l hl)
      size := by rw [hd.files, h.size]
      others := fun k hk => by rw [hfile, h.others k hk]
      held := by
        obtain ⟨w', moved, hw', hheld⟩ := h.held
        exact ⟨w', moved, hw', by rw [hfile]; exact hheld⟩ }

/-! ## The steps of a rotation -/

/-- Bytes that a file took are behind the others. -/
theorem append_ok (hk : n < d.files.size) (h : d.append n b = .ok d') :
    Only n d d' ∧ (d'.file n).contents = (d.file n).contents.followed b := by
  unfold Disk.append at h
  split at h
  · rename_i hb
    cases h
    have he : b = .empty := by simpa [ByteArray.isEmpty] using hb
    exact ⟨.refl n _, by rw [he, Contents.followed_empty]⟩
  · dsimp only at h
    split at h
    · cases h
    · cases h
      exact ⟨only_setFile _ _ _, by rw [file_setFile_self hk, Contents.followed]⟩

/-- **Flushing**, whether it works or not, moves bytes from what is kept back to the file. -/
theorem flushWriter_stays (hw : f.writer = some w) (hk : w.file < d.files.size) :
    f.Stays w d (f.flushWriter d).2.1 (f.flushWriter d).2.2 := by
  simp only [flushWriter, hw]
  unfold Writer.flush
  cases ha : d.append w.file w.pending with
  | error r =>
    -- nothing was moved
    exact
      { policy := rfl, path := rfl, backups := rfl, written := rfl, closed := rfl
        names := fun _ _ => Iff.rfl, directories := fun _ hl => hl, size := rfl
        others := fun _ _ => rfl
        held := ⟨w, .empty, rfl, rfl, by simp, (Contents.followed_empty _).symm⟩ }
  | ok d₁ =>
    obtain ⟨ho, hcont⟩ := append_ok hk ha
    exact
      { policy := rfl, path := rfl, backups := rfl, written := rfl, closed := rfl
        names := fun l k => by rw [node?_congr ho.nodes]
        directories := fun l hl => by rw [node?_congr ho.nodes]; exact hl
        size := ho.size
        others := ho.others
        held := ⟨{ w with pending := .empty }, w.pending, rfl, rfl, by simp, hcont⟩ }

/-- **Wherever a rotation fails**, the rotating file and its disk are as they were. -/
theorem rotate_fails {e : Fault} {lines : List String} (hw : f.writer = some w)
    (hk : w.file < d.files.size) (h : f.rotate d = (.error e, f', lines, d')) :
    lines = [] ∧ f.Stays w d f' d' := by
  have hflushed := flushWriter_stays hw hk
  unfold rotate at h
  cases hfl : f.flushWriter d with
  | mk o rest =>
    obtain ⟨f₁, d₁⟩ := rest
    rw [hfl] at h hflushed
    cases o with
    | error r =>
      -- the current file could not be written out
      cases h
      exact ⟨rfl, hflushed⟩
    | ok u =>
      dsimp only at h
      have htick := expandTemplate_disk f₁.policy.template d₁
      cases hx : expandTemplate f₁.policy.template d₁ with
      | mk o d₂ =>
        rw [hx] at h htick
        obtain rfl : d₂ = d₁.tick := htick
        cases o with
        | error e' =>
          -- there is no name for the next file
          cases h
          exact ⟨rfl, hflushed.onward (sameFiles_tick d₁) _ _⟩
        | ok p =>
          obtain ⟨base, index, hnext⟩ := nextPath_keeps f₁ d₁.tick p
          dsimp only at h
          split at h
          · -- the next file could not be opened
            rename_i e' d₃ hopen
            cases h
            have hsame := (sameFiles_tick d₁).trans (openLog_error_same hopen)
            rw [hnext]
            exact ⟨rfl, hflushed.onward hsame base index⟩
          · cases h

/-! ## Later on -/

/-- The next file can be opened, once the current one is written out. -/
def Unobstructed (f : RotatingFile) (d : Disk) : Prop :=
  ∃ f₁ d₁ p d₂ w d₃, f.flushWriter d = (.ok (), f₁, d₁) ∧
    expandTemplate f.policy.template d₁ = (.ok p, d₂) ∧
    openLog (f₁.nextPath d₂ p).1 d₂ = (.ok w, d₃)

/-- The file goes by the name of the temporary file of its own compression, which begins with
nothing in it. -/
def Shadowed (f : RotatingFile) (n : ℕ) (d : Disk) : Prop :=
  f.policy.compress ∧ d.At (temporaryPath f.path) n

/-- **What is kept back reaches its file**: flushing and closing succeed, and so does beginning a new
file as soon as one can be opened, and afterwards the file holds this. -/
structure Delivers (f : RotatingFile) (n : ℕ) (c : Contents) (d : Disk) : Prop where
  flush : ∃ f₁ d₁, f.flush d = (.ok (), f₁, d₁) ∧ (d₁.file n).contents = c
  close : ∃ f₁ d₁, f.close d = (.ok (), f₁, d₁) ∧ f₁.closed ∧ (d₁.file n).contents = c
  rotate : f.Unobstructed d → ∃ f₁ lines d₁, f.rotate d = (.ok (), f₁, lines, d₁) ∧
    (¬ f.Shadowed n d → (d₁.file n).contents = c)

/-- **A file that takes bytes** receives all that was kept back for it. -/
theorem delivers_total (hw : f.writer = some w) (hopen : f.closed = false) (ht : d.Takes w.file) :
    f.Delivers w.file (w.total d) d := by
  obtain ⟨d₁, hflush, ho, ht₁, hcont⟩ := Writer.flush_works ht
  set f₁ : RotatingFile := { f with writer := some { w with pending := .empty } } with hf₁
  have hfl : f.flushWriter d = (.ok (), f₁, d₁) := by simp only [flushWriter, hw, hflush, hf₁]
  refine ⟨⟨f₁, d₁, flush_ok hfl, hcont⟩, ⟨_, d₁, close_ok hopen hfl, rfl, hcont⟩, ?_⟩
  · rintro ⟨f₁', d₁', p, d₂, w₃, d₃, hfl', hexpand, hlog⟩
    rw [hfl] at hfl'
    cases hfl'
    obtain ⟨base, index, hnext⟩ := nextPath_keeps f₁ d₂ p
    obtain rfl : d₂ = d₁.tick := by rw [← expandTemplate_disk f.policy.template d₁, hexpand]
    -- opening the next file and retiring this one leave its bytes alone
    have hopened := openLog_touches (d := d₁.tick) hlog
    have hretired := (f₁.nextPath d₁.tick p).2.retire_touches (f₁.nextPath d₁.tick p).1 w₃ d₃
    have hrotate := rotate_eq hfl (by exact hexpand) hlog
    rcases hr : (f₁.nextPath d₁.tick p).2.retire (f₁.nextPath d₁.tick p).1 w₃ d₃ with ⟨f₂, lines, d₄⟩
    rw [hr] at hrotate hretired
    refine ⟨f₂, lines, d₄, hrotate, fun hshadow => ?_⟩
    have hleft : ¬ ((f₁.nextPath d₁.tick p).2.policy.compress ∧
        d₃.At (temporaryPath (f₁.nextPath d₁.tick p).2.path) w.file) := by
      rw [hnext]
      rintro ⟨hc, hat⟩
      have hbefore := hopened.name (k := w.file) ht₁.known id hat
      rw [show d₁.tick.node? = d₁.node? from rfl, node?_congr ho.nodes] at hbefore
      exact hshadow ⟨hc, hbefore⟩
    have hsame := hretired.same w.file (Nat.lt_of_lt_of_le ht₁.known hopened.size) hleft
    rw [hsame, hopened.same w.file ht₁.known id]
    exact hcont

/-- Only a rotation tells of one that failed. -/
theorem append_no_rotation {path why : String} {d' : Disk}
    (h : f.append b d = (.error (.fault (.rotation path why)), f', d')) : False := by
  unfold RotatingFile.append at h
  split at h
  · simp [closedOutcome, Outcome.fault] at h
  · split at h <;> simp [Outcome.fault, systemFault] at h

end RotatingFile

open RotatingFile

variable {f f' : RotatingFile} {w : Writer} {d d' : Disk} {b : ByteArray} {path why : String}
  {lines : List String}

/-- **A rotation that fails leaves everything as it was.** Where a payload is refused for want of a
new file, the rotating file and its disk are as they were, and the payload is not in the current
file. What was written earlier is in that file or kept back for it, and reaches it as soon as the
file takes bytes: by flushing, by closing, and by beginning a new file. -/
theorem failed_rotation_keeps_all (hw : f.writer = some w) (hk : w.file < d.files.size)
    (h : f.write b d = (.error (.fault (.rotation path why)), f', lines, d')) :
    f.closed = false ∧ lines = [] ∧ f.Stays w d f' d' ∧
      ∀ d'' : Disk, d''.Takes w.file → (d''.file w.file).contents = (d'.file w.file).contents →
        f'.Delivers w.file (w.total d) d'' := by
  unfold RotatingFile.write at h
  split at h
  · -- a sink that was closed says so
    simp [closedOutcome, Outcome.fault] at h
  rename_i hopen
  rw [Bool.not_eq_true] at hopen
  split at h
  · split at h
    · -- the rotation failed
      rename_i e f₁ lines₁ d₁ hrotate
      cases h
      obtain ⟨hquiet, hstays⟩ := rotate_fails hw hk hrotate
      refine ⟨hopen, hquiet, hstays, fun d'' ht hcont => ?_⟩
      obtain ⟨w', hw', hfile, htotal⟩ := hstays.total
      have hdelivers := delivers_total (d := d'') hw' (by rw [hstays.closed]; exact hopen)
        (by rw [hfile]; exact ht)
      -- on that disk as well, the file and its writer hold what they held
      have hsame : w'.total d'' = w.total d := by
        rw [← htotal, Writer.total, Writer.total, hfile, hcont]
      rwa [hfile, hsame] at hdelivers
    · rename_i f₁ lines₁ d₁ hrotate
      cases ha : f₁.append b d₁ with
      | mk o rest =>
        simp only [ha, Prod.mk.injEq] at h
        obtain ⟨rfl, -⟩ := h
        exact (append_no_rotation ha).elim
  · cases ha : f.append b d with
    | mk o rest =>
      simp only [ha, Prod.mk.injEq] at h
      obtain ⟨rfl, -⟩ := h
      exact (append_no_rotation ha).elim

/-- A rotating file of at most four bytes with three bytes, two of which are kept back. -/
def crowdedFile : RotatingFile where
  policy := ⟨"log/app.log", some 4, none, none, true⟩
  writer := some { file := 0, pending := ⟨#[2, 3]⟩ }
  path := .ofText "log/app.log"
  written := 3
  base := .ofText "log/app.log"

/-- Its file has lost its name, and there is another file in the place of the directory. -/
def blockedDisk : Disk where
  nodes := [(["log"], .file 1)]
  files := #[{ contents := { plain := ⟨#[1]⟩ } }, {}]

/-- The two bytes are handed to the file, a new one cannot be opened, and once the name of the
directory is free again, everything is there. -/
theorem failed_rotation_keeps_all_blocked : ∃ path why f' d',
    crowdedFile.write ⟨#[4, 5]⟩ blockedDisk =
        (.error (.fault (.rotation path why)), f', [], d') ∧
      crowdedFile.Stays { file := 0, pending := ⟨#[2, 3]⟩ } blockedDisk f' d' ∧
      f'.Delivers 0 { plain := ⟨#[1, 2, 3]⟩ } { d' with nodes := [] } := by
  have hwrite : crowdedFile.write ⟨#[4, 5]⟩ blockedDisk =
      (.error (.fault (.rotation _ _)), _, [], _) := rfl
  obtain ⟨-, -, hstays, hlater⟩ := failed_rotation_keeps_all rfl (by decide) hwrite
  exact ⟨_, _, _, _, hwrite, hstays, hlater _ ⟨by decide, rfl⟩ rfl⟩

end Logging.Sink
