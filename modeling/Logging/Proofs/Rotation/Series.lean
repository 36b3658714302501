import Logging.Proofs.Disk.Files
import Logging.Proofs.Rotation.Names

/-!
# Series of files

* `Chunks`: what the files of a series receive, by sizes alone.
* `Chunks.joined_appends`: **nothing is lost or moved by cutting payloads into files.**
* `RotatingFile.write_on`, `RotatingFile.write_rotated`, `RotatingFile.write_refused`: **the ways that
  a payload can take.**
* `Recorded.run`: a rotating file that is written and flushed, with a list of the files that it has
  opened.
* `Recorded.Returns`: whether the search for the name of every file comes to an end.
-/

namespace Logging.Sink

open Disk

/-! ## Payloads cut into files -/

/-- What the files of a series receive: the full ones, the oldest first, and the current one. -/
structure Chunks where
  full : List ByteArray := []
  current : ByteArray

namespace Chunks

variable {most : Option ℕ}

/-- Whether the current file has no room for so many bytes more. An empty file has. -/
def crowded (most : Option ℕ) (incoming : ℕ) (c : Chunks) : Bool :=
  c.current.size ≠ 0 && match most with
    | some n => n < c.current.size + incoming
    | none => false

/-- One payload more. -/
def append (most : Option ℕ) (c : Chunks) (b : ByteArray) : Chunks :=
  if c.crowded most b.size then ⟨c.full ++ [c.current], b⟩ else ⟨c.full, c.current ++ b⟩

/-- Several payloads more. -/
def appends (most : Option ℕ) (c : Chunks) (bs : List ByteArray) : Chunks :=
  bs.foldl (append most) c

/-- Everything that the files of a series receive. -/
def all (c : Chunks) : List ByteArray := c.full ++ [c.current]

theorem joined_append (c : Chunks) (b : ByteArray) :
    joined (c.append most b).all = joined c.all ++ b := by
  unfold append
  split <;> simp [all, ByteArray.append_assoc]

/-- **Nothing is lost or moved** by cutting payloads into files. -/
theorem joined_appends : ∀ (bs : List ByteArray) (c : Chunks),
    joined (c.appends most bs).all = joined c.all ++ joined bs := by
  intro bs
  induction bs with
  | nil => intro c; simp [appends]
  | cons b bs ih =>
    intro c
    calc joined ((c.append most b).appends most bs).all
        = joined (c.append most b).all ++ joined bs := ih _
      _ = joined c.all ++ joined (b :: bs) := by
        rw [joined_append, joined_cons, ByteArray.append_assoc]

/-- A file that is full stays so. -/
theorem full_appends (most : Option ℕ) : ∀ (bs : List ByteArray) (c : Chunks),
    c.full.length ≤ (c.appends most bs).full.length := by
  intro bs
  induction bs with
  | nil => intro c; exact Nat.le_refl _
  | cons b bs ih =>
    intro c
    refine Nat.le_trans ?_ (ih _)
    unfold append
    split <;> simp

end Chunks

/-! ## A rotating file that is used -/

/-- What is done to a rotating file while it is open. -/
inductive RotatingFile.Use where
  | write (b : ByteArray)
  | flush

section Operations

variable {f f₁ f' : RotatingFile} {d d₁ d' : Disk} {b : ByteArray} {o : Outcome}
  {lines : List String}

/-- A payload for which no new file is due goes to the current one. -/
theorem RotatingFile.write_on (hopen : f.closed = false) (hdue : f.isDue b.size d = false)
    (happend : f.append b d = (o, f', d')) : f.write b d = (o, f', [], d') := by
  simp only [RotatingFile.write, hopen, hdue, happend, Bool.false_eq_true, if_false]

/-- A payload for which a new file is due goes to that one. -/
theorem RotatingFile.write_rotated (hopen : f.closed = false) (hdue : f.isDue b.size d = true)
    (hrotate : f.rotate d = (.ok (), f₁, lines, d₁)) (happend : f₁.append b d₁ = (o, f', d')) :
    f.write b d = (o, f', lines, d') := by
  simp only [RotatingFile.write, hopen, hdue, hrotate, happend, Bool.false_eq_true, if_false,
    if_true]

/-- Where no new file can begin, the payload is refused. -/
theorem RotatingFile.write_refused {e : Fault} (hopen : f.closed = false)
    (hdue : f.isDue b.size d = true) (hrotate : f.rotate d = (.error e, f', lines, d')) :
    f.write b d = (Outcome.fault e, f', lines, d') := by
  simp only [RotatingFile.write, hopen, hdue, hrotate, Bool.false_eq_true, if_false, if_true]

theorem RotatingFile.flush_ok (hflush : f.flushWriter d = (.ok (), f', d')) :
    f.flush d = (.ok (), f', d') := by
  simp only [RotatingFile.flush, hflush]
  rfl

theorem RotatingFile.close_ok (hopen : f.closed = false)
    (hflush : f.flushWriter d = (.ok (), f', d')) :
    f.close d = (.ok (), { f' with writer := none, closed := true }, d') := by
  simp only [RotatingFile.close, hopen, flush_ok hflush, Bool.false_eq_true, if_false]

end Operations

/-- The payloads that are written. -/
def payloads (us : List RotatingFile.Use) : List ByteArray :=
  us.filterMap fun
    | .write b => some b
    | .flush => none

/-- A rotating file with its disk, the files that it has opened, in order, by their paths and
numbers, and what its operations came to and reported. -/
structure Recorded where
  sink : RotatingFile
  disk : Disk
  opened : List (Path × ℕ)
  outcomes : List Outcome := []
  reports : List String := []

namespace Recorded

/-- The file that is written now is listed, if it is not the last one in the list. -/
def listed (f : RotatingFile) (l : List (Path × ℕ)) : List (Path × ℕ) :=
  match f.writer with
  | some w => if l.getLast? = some (f.path, w.file) then l else l ++ [(f.path, w.file)]
  | none => l

/-- A rotating file that was just opened. -/
def start (f : RotatingFile) (d : Disk) : Recorded := ⟨f, d, listed f [], [], []⟩

/-- Something is done to the rotating file. -/
def use (s : Recorded) : RotatingFile.Use → Recorded
  | .write b =>
    let (o, f, lines, d) := s.sink.write b s.disk
    ⟨f, d, listed f s.opened, s.outcomes ++ [o], s.reports ++ lines⟩
  | .flush =>
    let (o, f, d) := s.sink.flush s.disk
    ⟨f, d, listed f s.opened, s.outcomes ++ [o], s.reports⟩

def run (s : Recorded) (us : List RotatingFile.Use) : Recorded := us.foldl use s

/-- The rotating file is closed. -/
def close (s : Recorded) : Recorded :=
  let (o, f, d) := s.sink.close s.disk
  ⟨f, d, s.opened, s.outcomes ++ [o], s.reports⟩

/-- **The search for the name of the next file comes to an end**: if one is due, some number that is
still to be tried gives a free name. The last number is tried again and again. -/
def Finds (s : Recorded) : RotatingFile.Use → Prop
  | .write b => s.sink.isDue b.size s.disk →
    ∃ i, s.sink.nextIndex ≤ i ∧ i ≤ RotatingFile.indexLimit ∧
      s.sink.isTaken s.disk (RotatingFile.numbered s.sink.base i) = false
  | .flush => True

/-- Every operation returns. -/
def Returns (s : Recorded) : List RotatingFile.Use → Prop
  | [] => True
  | u :: us => s.Finds u ∧ (s.use u).Returns us

end Recorded

end Logging.Sink
