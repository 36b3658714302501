import Mathlib.Order.Bounds.Defs
import Logging.Proofs.Rotation.Archive
import Logging.Proofs.Rotation.Lasting
import Logging.Proofs.Rotation.Search

/-!
# Names that no file of a series has had

Where the template gives the same path at every time, the files of a series differ by their numbers.
A number that was tried is not tried again, so a name stays its file's own, also after the file was
removed.

* `Seeks`: what the search for a name comes to, however long it takes.
* `nextPath_least`: **the next file gets the least number whose name is free**, and the search for it
  ends.
* `choice?`, `rotate_cases`: the name that a rotation chooses, whether or not it succeeds.
* `Turn.onward`, `choices_numbers`: in one turn no number is chosen or a new one, and so a run
  chooses larger and larger ones.
* `names_fresh`: **no name is chosen twice, and none is that of the first file**, whatever is done to
  the disk in between.
-/

namespace Logging.Sink.RotatingFile

open Disk

variable {f f' : RotatingFile} {d d' : Disk} {p : Path} {name : String} {i j k : ℕ}
  {taken : Path → Bool} {r r' : Path × ℕ}

/-! ## The search ends -/

/-- **What the search comes to**, from a number on, however long it takes: the first free name that
it tries and the number after it. -/
inductive Seeks (taken : Path → Bool) (p : Path) : ℕ → Path × ℕ → Prop where
  | free {i : ℕ} (h : taken (numbered p i) = false) :
      Seeks taken p i (numbered p i, min (i + 1) indexLimit)
  | used {i : ℕ} {r : Path × ℕ} (h : taken (numbered p i))
      (rest : Seeks taken p (min (i + 1) indexLimit) r) : Seeks taken p i r

/-- The search comes to one thing only. -/
theorem Seeks.unique (h : Seeks taken p i r) : Seeks taken p i r' → r' = r := by
  induction h with
  | free hfree =>
    intro h'
    cases h' with
    | free => rfl
    | used hused => simp [hfree] at hused
  | used hused _ ih =>
    intro h'
    cases h' with
    | free hfree => simp [hfree] at hused
    | used _ hrest => exact ih hrest

/-- A number that is free is come to from every number below it, if those between are taken. -/
theorem seeks_of_taken (hfree : taken (numbered p k) = false) (hk : k ≤ indexLimit) :
    ∀ n i, i + n = k → (∀ j, i ≤ j → j < k → taken (numbered p j)) →
      Seeks taken p i (numbered p k, min (k + 1) indexLimit) := by
  intro n
  induction n with
  | zero =>
    rintro i rfl _
    exact .free hfree
  | succ n ih =>
    intro i hi htaken
    have hnext : min (i + 1) indexLimit = i + 1 := by omega
    refine .used (htaken i (Nat.le_refl i) (by omega)) ?_
    rw [hnext]
    exact ih (i + 1) (by omega) fun j hj => htaken j (by omega)

/-- **Some number is free**: there are fewer names in the directory than numbers. -/
theorem exists_free (i : ℕ) :
    ∃ k, i ≤ k ∧ k ≤ i + namesIn d (home p) ∧ f.isTaken d (numbered p k) = false := by
  by_contra hnone
  have htaken : ∀ j, i ≤ j → j < i + namesIn d (home p) + 1 → f.isTaken d (numbered p j) := by
    intro j hij hj
    by_contra hfree
    exact hnone ⟨j, hij, by omega, by simpa using hfree⟩
  have := taken_le_namesIn htaken
  omega

/-- There are fewer names in the directory of the series than numbers that are still to be tried. -/
def Roomy (f : RotatingFile) (d : Disk) : Prop :=
  f.nextIndex + namesIn d (home f.base) < indexLimit

instance (f : RotatingFile) (d : Disk) : Decidable (f.Roomy d) := inferInstanceAs (Decidable (_ < _))

/-- **The next file gets the least number whose name is free**, the search for it ends, and the
number after it is tried next. -/
theorem nextPath_least (hroom : f.Roomy d) :
    ∃ k, IsLeast {i | f.nextIndex ≤ i ∧ f.isTaken d (numbered f.base i) = false} k ∧
      Seeks (f.isTaken d) f.base f.nextIndex (numbered f.base k, k + 1) ∧
      f.nextPath d f.base = (numbered f.base k, { f with nextIndex := k + 1 }) := by
  obtain ⟨m, hm, hmroom, hmfree⟩ := exists_free (f := f) (d := d) (p := f.base) f.nextIndex
  have hmlimit : m < indexLimit := Nat.lt_of_le_of_lt hmroom hroom
  obtain ⟨k, hk, hklimit, hfree, htaken, hsearch⟩ :=
    search_finds (f := f) (d := d) (p := f.base) ⟨m, hm, Nat.le_of_lt hmlimit, hmfree⟩
  have hleast : ∀ j, f.nextIndex ≤ j → f.isTaken d (numbered f.base j) = false → k ≤ j := by
    intro j hj hjfree
    by_contra hlt
    have := htaken j hj (by omega)
    simp [hjfree] at this
  have hkm : k ≤ m := hleast m hm hmfree
  have hnext : min (k + 1) indexLimit = k + 1 := by omega
  have hseeks := seeks_of_taken hfree hklimit (k - f.nextIndex) f.nextIndex (by omega) htaken
  rw [hnext] at hsearch hseeks
  refine ⟨k, ⟨⟨hk, hfree⟩, fun j hj => hleast j hj.1 hj.2⟩, hseeks, ?_⟩
  simp only [nextPath, ne_eq, not_true_eq_false, false_and, if_false, hsearch]

/-! ## The name that a rotation chooses -/

/-- The name that is chosen for a new file, if the current one can be written out and the template
gives a name. -/
def choice? (f : RotatingFile) (d : Disk) : Option Path :=
  match f.flushWriter d with
  | (.error _, _, _) => none
  | (.ok (), f, d) =>
    match expandTemplate f.policy.template d with
    | (.error _, _) => none
    | (.ok p, d) => some (f.nextPath d p).1

/-- Flushing changes neither the numbering nor a name on the disk. -/
theorem flushWriter_keeps (f : RotatingFile) (d : Disk) :
    ∃ w, (f.flushWriter d).2.1 = { f with writer := w } ∧ (f.flushWriter d).2.2.nodes = d.nodes := by
  unfold flushWriter
  split
  · exact ⟨f.writer, rfl, rfl⟩
  · rename_i w hw
    exact ⟨_, rfl, (w.flush_only d).nodes⟩

/-- **What a rotation comes to.** It breaks off before a name is chosen, or the file of that name
cannot be opened, or it is the current one from then on. -/
theorem rotate_cases (f : RotatingFile) (d : Disk) : ∃ w,
    (f.choice? d = none ∧ ∃ e d', f.rotate d = (.error e, { f with writer := w }, [], d')) ∨
      ∃ p d₁ d₂ q f₁, d₁.nodes = d.nodes ∧ expandTemplate f.policy.template d₁ = (.ok p, d₂) ∧
        nextPath { f with writer := w } d₂ p = (q, f₁) ∧ f.choice? d = some q ∧
        ((∃ why d', f.rotate d = (.error (.rotation q.text why), f₁, [], d')) ∨
          ∃ w' d₃, f.rotate d = (.ok (), f₁.retire q w' d₃)) := by
  obtain ⟨w, hkeeps, hnodes⟩ := flushWriter_keeps f d
  refine ⟨w, ?_⟩
  unfold choice? rotate
  cases hflush : f.flushWriter d with
  | mk o rest =>
    obtain ⟨f₁, d₁⟩ := rest
    rw [hflush] at hkeeps hnodes
    obtain rfl : f₁ = { f with writer := w } := hkeeps
    cases o with
    | error r => exact .inl ⟨rfl, _, _, rfl⟩
    | ok _ =>
      dsimp only
      cases hexpand : expandTemplate f.policy.template d₁ with
      | mk o d₂ =>
        cases o with
        | error e => exact .inl ⟨rfl, _, _, rfl⟩
        | ok p =>
          refine .inr ⟨p, d₁, d₂, _, _, hnodes, hexpand, rfl, rfl, ?_⟩
          dsimp only
          split
          · exact .inl ⟨_, _, rfl⟩
          · exact .inr ⟨_, _, rfl⟩

/-- **The template gives the same path at every time**, which is that of the first file. -/
def Constant (f : RotatingFile) : Prop :=
  ∀ t, ∃ text, Time.fill? f.policy.template t = some text ∧ .ofText text = f.base

/-- **The numbering goes on**: template and first name are as they were, and the number of the name
that was chosen, if there is one, was not tried before. -/
structure Onward (f : RotatingFile) (chosen : Option Path) (f' : RotatingFile) : Prop where
  policy : f'.policy = f.policy
  base : f'.base = f.base
  numbers : (chosen = none ∧ f'.nextIndex = f.nextIndex) ∨
    ∃ k, f.nextIndex ≤ k ∧ chosen = some (numbered f.base k) ∧ f'.nextIndex = k + 1

theorem Onward.constant {chosen : Option Path} (h : f.Onward chosen f') (hs : f.Constant) :
    f'.Constant := by
  unfold Constant
  rw [h.policy, h.base]
  exact hs

/-- **A rotation chooses a new number.** -/
theorem rotate_onward (hs : f.Constant) (hroom : f.choice? d ≠ none → f.Roomy d) :
    f.Onward (f.choice? d) (f.rotate d).2.1 := by
  obtain ⟨w, ⟨hchoice, e, d', hrotate⟩ |
    ⟨p, d₁, d₂, q, f₁, hnodes, hexpand, hnext, hchoice, hrotate⟩⟩ := f.rotate_cases d
  · rw [hrotate, hchoice]
    exact ⟨rfl, rfl, .inl ⟨rfl, rfl⟩⟩
  · rw [expandTemplate_constant hs d₁] at hexpand
    cases hexpand
    -- the search is made on a disk with the same names
    have hroom₁ : Roomy { f with writer := w } d₁.tick := by
      have hsame : d₁.tick.nodes = d.nodes := hnodes
      simpa only [Roomy, namesIn, hsame] using hroom (by simp [hchoice])
    obtain ⟨k, ⟨⟨hk, -⟩, -⟩, -, hleast⟩ := nextPath_least hroom₁
    have hsame := hnext.symm.trans hleast
    cases hsame
    rw [hchoice]
    rcases hrotate with ⟨why, d', hrotate⟩ | ⟨w', d₃, hrotate⟩
    · rw [hrotate]
      exact ⟨rfl, rfl, .inr ⟨k, hk, rfl, rfl⟩⟩
    · rw [hrotate]
      exact ⟨rfl, rfl, .inr ⟨k, hk, rfl, rfl⟩⟩

theorem Onward.written {chosen : Option Path} (h : f.Onward chosen f') (w : Option Writer) (n : ℕ) :
    f.Onward chosen { f' with writer := w, written := n } :=
  ⟨h.policy, h.base, h.numbers⟩

theorem append_keeps (b : ByteArray) (f : RotatingFile) (d : Disk) :
    ∃ w n, (f.append b d).2.1 = { f with writer := w, written := n } := by
  unfold append
  split
  · exact ⟨f.writer, f.written, rfl⟩
  · split <;> exact ⟨_, _, rfl⟩

/-! ## One use after the other -/

/-- Something is done to a rotating file, on a disk on which anything may have been done before:
files were removed, made, or named anew. -/
structure Turn where
  disk : Disk
  use : Use

namespace Turn

/-- The name that is chosen in this turn, if a new file is due. -/
def choice? (t : Turn) (f : RotatingFile) : Option Path :=
  match t.use with
  | .write b => if f.closed = false ∧ f.isDue b.size t.disk then f.choice? t.disk else none
  | .flush => none

/-- The rotating file after this turn. -/
def after (t : Turn) (f : RotatingFile) : RotatingFile :=
  match t.use with
  | .write b => (f.write b t.disk).2.1
  | .flush => (f.flush t.disk).2.1

variable {t : Turn}

/-- **What a turn comes to**: it leaves the name of the current file and the numbering alone, or it is
a rotation, and something is written. -/
theorem cases (t : Turn) (f : RotatingFile) : ∃ w n,
    (t.choice? f = none ∧ t.after f = { f with writer := w, written := n }) ∨
      (t.choice? f = f.choice? t.disk ∧
        t.after f = { (f.rotate t.disk).2.1 with writer := w, written := n }) := by
  obtain ⟨d, use⟩ := t
  cases use with
  | flush =>
    obtain ⟨w, hkeeps, -⟩ := flushWriter_keeps f d
    exact ⟨w, f.written, .inl ⟨rfl, hkeeps⟩⟩
  | write b =>
    unfold choice? after write
    dsimp only
    by_cases hdue : f.closed = false ∧ f.isDue b.size d
    · rw [if_pos hdue]
      simp only [hdue.1, hdue.2, Bool.false_eq_true, if_false, if_true]
      rcases hrotate : f.rotate d with ⟨o, f₁, lines, d₁⟩
      cases o with
      | error e => exact ⟨f₁.writer, f₁.written, .inr ⟨trivial, rfl⟩⟩
      | ok _ =>
        obtain ⟨w, n, happend⟩ := append_keeps b f₁ d₁
        exact ⟨w, n, .inr ⟨trivial, happend⟩⟩
    · rw [if_neg hdue]
      split
      · exact ⟨f.writer, f.written, .inl ⟨rfl, rfl⟩⟩
      · rename_i hopen
        rw [if_neg fun h => hdue ⟨by simpa using hopen, h⟩]
        obtain ⟨w, n, happend⟩ := append_keeps b f d
        exact ⟨w, n, .inl ⟨rfl, happend⟩⟩

/-- **In one turn the numbering goes on**, whatever the turn is. -/
theorem onward (hs : f.Constant) (hroom : t.choice? f ≠ none → f.Roomy t.disk) :
    f.Onward (t.choice? f) (t.after f) := by
  obtain ⟨w, n, ⟨hchoice, hafter⟩ | ⟨hchoice, hafter⟩⟩ := t.cases f
  · rw [hchoice, hafter]
    exact ⟨rfl, rfl, .inl ⟨rfl, rfl⟩⟩
  · rw [hchoice] at hroom
    rw [hchoice, hafter]
    exact (rotate_onward hs hroom).written w n

end Turn

variable {ts : List Turn}

/-- The names that are chosen in a run, in order. -/
def choices (f : RotatingFile) : List Turn → List Path
  | [] => []
  | t :: ts => (t.choice? f).toList ++ (t.after f).choices ts

/-- **Whenever a name is chosen, there are fewer names than numbers.** -/
def AlwaysRoomy (f : RotatingFile) : List Turn → Prop
  | [] => True
  | t :: ts => (t.choice? f ≠ none → f.Roomy t.disk) ∧ (t.after f).AlwaysRoomy ts

/-- **A run chooses larger and larger numbers**, and none below the one that is tried first. -/
theorem choices_numbers : ∀ (ts : List Turn) (f : RotatingFile), f.Constant → f.AlwaysRoomy ts →
    ∃ ks : List ℕ, f.choices ts = ks.map (numbered f.base) ∧ ks.Pairwise (· < ·) ∧
      ∀ k ∈ ks, f.nextIndex ≤ k := by
  intro ts
  induction ts with
  | nil =>
    intro f _ _
    exact ⟨[], rfl, .nil, by simp⟩
  | cons t ts ih =>
    intro f hs hroomy
    obtain ⟨hroom, hlater⟩ := hroomy
    have honward := t.onward hs hroom
    obtain ⟨ks, hks, hsorted, hnew⟩ := ih (t.after f) (honward.constant hs) hlater
    rw [honward.base] at hks
    rcases honward.numbers with ⟨hchosen, hindex⟩ | ⟨k, hk, hchosen, hindex⟩
    · refine ⟨ks, by simp [choices, hchosen, hks], hsorted, fun j hj => ?_⟩
      rw [← hindex]
      exact hnew j hj
    · -- the numbers that are chosen later are above this one
      have habove : ∀ j ∈ ks, k < j := by
        intro j hj
        have := hnew j hj
        omega
      refine ⟨k :: ks, by simp [choices, hchosen, hks], .cons habove hsorted, fun j hj => ?_⟩
      rcases List.mem_cons.1 hj with rfl | hj
      · exact hk
      · have := habove j hj
        omega

/-! ## Different names -/

theorem numbered_location_inj (h : (numbered p i).location = (numbered p j).location) : i = j := by
  rw [(numbered_leads p i).location, (numbered_leads p j).location] at h
  obtain ⟨-, hlast⟩ := List.append_inj' h rfl
  exact numberedName_inj (List.cons.inj hlast).1

/-- A name with a number is longer than the one without. -/
theorem numberedName_ne (p : Path) (i : ℕ) : numberedName p i ≠ p.fileName?.getD "" := by
  intro h
  obtain ⟨stem, extension, hname, -, hnumber⟩ := numberedName_toList p
  have hlength := congrArg (fun x : String => x.toList.length) h
  simp only [hname, hnumber, List.length_append, List.length_cons] at hlength
  omega

/-- **A path with a number in it leads elsewhere.** -/
theorem numbered_location_ne (p : Path) (i : ℕ) : (numbered p i).location ≠ p.location := by
  intro h
  cases hname : p.fileName? with
  | none =>
    -- the number is in a name behind the path
    have hpush : numbered p i = p.push (numberedName p i) := by
      simp only [numbered, Path.withFileName, numberedName, hname]
    rw [hpush, Path.location_push (ordinary_numberedName p i)] at h
    simp at h
  | some name =>
    obtain ⟨here, hlocation⟩ := Path.location_of_fileName? hname
    rw [(numbered_leads p i).location, hlocation] at h
    obtain ⟨-, hlast⟩ := List.append_inj' h rfl
    have hne := numberedName_ne p i
    rw [hname] at hne
    exact hne (List.cons.inj hlast).1

/-! ## Fresh names -/

/-- **The names of the files of a series are fresh**, and the search for each of them ends. Where the
template gives the same path at every time, and there are fewer names in the directory of the series
than numbers that are still to be tried, the next file gets the least of these numbers whose name is
free, and the one after it is tried next. So in any run, whatever else happens to the disk before
each use, no name is chosen that leads to where an earlier one or that of the first file led. -/
theorem names_fresh (hs : f.Constant) :
    (∀ d, f.Roomy d → expandTemplate f.policy.template d = (.ok f.base, d.tick) ∧
      ∃ k, IsLeast {i | f.nextIndex ≤ i ∧ f.isTaken d (numbered f.base i) = false} k ∧
        Seeks (f.isTaken d) f.base f.nextIndex (numbered f.base k, k + 1) ∧
        f.nextPath d f.base = (numbered f.base k, { f with nextIndex := k + 1 })) ∧
    ∀ ts, f.AlwaysRoomy ts → ((f.base :: f.choices ts).map Path.location).Nodup := by
  refine ⟨fun d hroom => ⟨expandTemplate_constant hs d, nextPath_least hroom⟩, fun ts hroomy => ?_⟩
  obtain ⟨ks, hks, hsorted, -⟩ := choices_numbers ts f hs hroomy
  rw [hks, List.map_cons, List.nodup_cons, List.map_map]
  constructor
  · intro hfirst
    obtain ⟨k, -, hk⟩ := List.mem_map.1 hfirst
    exact numbered_location_ne f.base k hk
  · have hnodup : ks.Nodup := hsorted.imp Nat.ne_of_lt
    exact hnodup.map fun i j hij => numbered_location_inj hij

/-- A rotating file of at most one byte, which compresses what is full. -/
def oneByteFile : RotatingFile where
  policy := ⟨"log/app.log", some 1, none, some 1, true⟩
  writer := some { file := 0 }
  path := .ofText "log/app.log"
  written := 1
  base := .ofText "log/app.log"

/-- Two numbers are taken, by a directory and by a compressed file. -/
def clutteredDisk : Disk where
  nodes := [(["log"], .directory), (["log", "app.log"], .file 0), (["log", "app.1.log"], .directory),
    (["log", "app.2.log.gz"], .file 1)]
  files := #[{ contents := { plain := ⟨#[1]⟩ } }, {}]

/-- Every file is gone. -/
def clearedDisk : Disk where
  nodes := [(["log"], .directory)]
  files := #[{ contents := { plain := ⟨#[1]⟩ } }, {}]

/-- Two payloads are written, and every file is removed after the first of them. -/
def clearedTurns : List Turn := [⟨clutteredDisk, .write ⟨#[2]⟩⟩, ⟨clearedDisk, .write ⟨#[3]⟩⟩]

/-- Numbers that are taken are passed over, and are not used later when they are free. -/
theorem names_fresh_cleared :
    (∃ k, oneByteFile.nextPath clutteredDisk oneByteFile.base =
      (numbered oneByteFile.base k, { oneByteFile with nextIndex := k + 1 })) ∧
    oneByteFile.choices clearedTurns = [.ofText "log/app.3.log", .ofText "log/app.4.log"] ∧
    ((oneByteFile.base :: oneByteFile.choices clearedTurns).map Path.location).Nodup := by
  have hs : oneByteFile.Constant := fun t =>
    ⟨"log/app.log", Time.fill?_plain (by decide) t, rfl⟩
  obtain ⟨hnext, hrun⟩ := names_fresh hs
  obtain ⟨-, k, -, -, hk⟩ := hnext clutteredDisk (by decide)
  have hroomy : oneByteFile.AlwaysRoomy clearedTurns :=
    ⟨fun _ => by decide, fun _ => by decide, trivial⟩
  exact ⟨⟨k, hk⟩, rfl, hrun clearedTurns hroomy⟩

end Logging.Sink.RotatingFile
