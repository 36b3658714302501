import Logging.Disk.Basic

/-!
# Buffered writing

A writer keeps bytes back and hands them to its file in larger pieces.

* `Writer.write`: what does not fit makes room first, and what is larger than all the room goes to
  the file at once.
* `Writer.flush`: hands everything to the file, which takes all of it or nothing. If it takes
  nothing, everything is kept.
-/

namespace Logging.Disk

/-- An open file, and the bytes that are kept back. -/
structure Writer where
  file : Nat
  pending : ByteArray := .empty
  deriving Inhabited

namespace Writer

/-- At most so many bytes are kept back. -/
def room : Nat := 8192

/-- Hands everything to the file. -/
def flush (w : Writer) (d : Disk) : Except Refusal Unit × Writer × Disk :=
  match d.append w.file w.pending with
  | .ok d => (.ok (), { w with pending := .empty }, d)
  | .error r => (.error r, w, d)

/-- Makes room for so many bytes, if they do not fit. -/
def makeRoom (n : Nat) (w : Writer) (d : Disk) : Except Refusal Unit × Writer × Disk :=
  if room < w.pending.size + n then w.flush d else (.ok (), w, d)

/-- Writes bytes. -/
def write (b : ByteArray) (w : Writer) (d : Disk) : Except Refusal Unit × Writer × Disk :=
  match w.makeRoom b.size d with
  | (.error r, w, d) => (.error r, w, d)
  | (.ok (), w, d) =>
    if room ≤ b.size then
      match d.append w.file b with
      | .ok d => (.ok (), w, d)
      | .error r => (.error r, w, d)
    else (.ok (), { w with pending := w.pending ++ b }, d)

end Writer

end Logging.Disk
