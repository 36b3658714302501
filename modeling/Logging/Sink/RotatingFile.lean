import Logging.Settings.Rotation
import Logging.Sink.File

/-!
# Rotating files

A rotating file is a series of files. A new one begins before a payload that the current one has no
room for, or when the current one is old; the full ones may be compressed, and only the newest of
them are kept.

* `RotatingFile.isDue`: whether a new file begins before a payload.
* `RotatingFile.nextPath`: the name of the next file, which no file has had.
* `RotatingFile.rotate`: begins a new file. If that fails, the current one goes on.
* `RotatingFile.write`, `RotatingFile.flush`, `RotatingFile.close`: the operations.
-/

namespace Logging.Sink

open Disk

/-- How a rotating file is kept. -/
structure RotationPolicy where
  template : String
  maxBytes : Option Nat
  maxAgeMillis : Option Nat
  maxBackups : Option Nat
  compress : Bool
  deriving DecidableEq, Repr, Inhabited

/-- A series of files. -/
structure RotatingFile where
  policy : RotationPolicy
  /-- The current file, until the sink is closed. -/
  writer : Option Writer
  path : Path
  /-- How many bytes the current file holds, with those that are kept back. -/
  written : Nat
  /-- The full files that are kept, the oldest first. -/
  backups : List Path := []
  /-- The name that the template gave last. -/
  base : Path
  /-- The number that is tried next for that name. -/
  nextIndex : Nat := 1
  closed : Bool := false
  deriving Inhabited

/-- A template filled in with the time that the clock shows. -/
def expandTemplate (template : String) (d : Disk) : Except Fault Path × Disk :=
  let d := d.tick
  match Time.fill? template d.reading with
  | some t => (.ok (.ofText t), d)
  | none => (.error (.rotation template "cannot expand file name template"), d)

/-- The name of the compressed form of a file. -/
def packedPath (p : Path) : Path := p.suffixed ".gz"

/-- The fault of a compression that could not begin. -/
def compressFault (what : String) (r : Refusal) : Fault :=
  .operation "compress log file" what r.text

/-- Puts the compressed form of a file under the name of its own, by way of a temporary file. -/
def packFile (p : Path) (d : Disk) : Except Fault Unit × Disk :=
  let tmp := (packedPath p).suffixed ".tmp"
  match d.opened p with
  | .error r => (.error (compressFault ("Failed to open file for compression: " ++ p.text) r), d)
  | .ok source =>
    match d.createEmpty tmp with
    | .error r =>
      (.error (compressFault ("Failed to create temporary compressed file: " ++ tmp.text) r), d)
    | .ok (n, d) =>
      match d.read source with
      | .error r =>
        (.error (.rotation p.text ("Compression failed: " ++ r.text)),
          (d.remove tmp).toOption.getD d)
      | .ok c =>
        let d := d.setFile n { contents := c.pack }
        match d.rename tmp (packedPath p) with
        | .ok d => (.ok (), d)
        | .error r =>
          (.error (.rotation p.text ("Failed to finalize compressed file: " ++ r.text)),
            (d.remove tmp).toOption.getD d)

/-- Compresses a file: the name that the backup has from then on, what is reported, and the disk. A
file that cannot be compressed stays as it is. -/
def compressBackup (p : Path) (d : Disk) : Path × List String × Disk :=
  match packFile p d with
  | (.error f, d) =>
    (p, ["[LOGGER WARNING] Keeping " ++ inQuotes p.text ++ " uncompressed: " ++ f.message], d)
  | (.ok (), d) =>
    match d.remove p with
    | .ok d => (packedPath p, [], d)
    | .error r =>
      (packedPath p,
        ["[LOGGER WARNING] Compressed " ++ p.text ++ " but could not remove it: " ++ r.text], d)

/-- Removes the oldest backups until no more than so many are left: those, what is reported, and the
disk. -/
def prune (most : Nat) : List Path → Disk → List Path × List String × Disk
  | [], d => ([], [], d)
  | p :: rest, d =>
    if rest.length < most then (p :: rest, [], d)
    else
      let (lines, d) := match d.remove p with
        | .ok d => ([], d)
        | .error r =>
          (["[LOGGER WARNING] Failed to remove old backup " ++ p.text ++ ": " ++ r.text], d)
      let (kept, more, d) := prune most rest d
      (kept, lines ++ more, d)

namespace RotatingFile

def name : String := "rotating_file"

/-- A sink whose first file has the name that the template gives. -/
def new (r : Settings.Rotation) (d : Disk) : Except Fault RotatingFile × Disk :=
  match r.fault? with
  | some f => (.error f, d)
  | none =>
    match expandTemplate r.template d with
    | (.error f, d) => (.error f, d)
    | (.ok p, d) =>
      match openLog p d with
      | (.error f, d) => (.error f, d)
      | (.ok w, d) =>
        let policy :=
          ⟨r.template, r.maxBytes, r.maxAgeSeconds.map (· * 1000), r.maxBackups, r.compress⟩
        (.ok { policy, writer := some w, path := p, written := d.size w.file, base := p }, d)

/-- The same with an age limit in milliseconds, which may be absent and may not be zero. -/
def newWithAge (r : Settings.Rotation) (maxAgeMillis : Option Nat) (d : Disk) :
    Except Fault RotatingFile × Disk :=
  if maxAgeMillis = some 0 then
    (.error (Settings.Rotation.wrong "max_age must be greater than zero"), d)
  else
    match new r d with
    | (.ok f, d) =>
      (.ok { f with policy :=
        { f.policy with maxAgeMillis := maxAgeMillis.or f.policy.maxAgeMillis } }, d)
    | failed => failed

/-- Whether so many more bytes would be too many for the current file. -/
def isCrowded (f : RotatingFile) (incoming : Nat) : Bool :=
  match f.policy.maxBytes with
  | some most => most < f.written + incoming
  | none => false

/-- Whether the current file was last changed long ago. -/
def isOld (f : RotatingFile) (d : Disk) : Bool :=
  match f.policy.maxAgeMillis, f.writer with
  | some most, some w => most ≤ (d.file w.file).age * 1000
  | _, _ => false

/-- Whether a new file begins before so many bytes. A file that is empty goes on. -/
def isDue (f : RotatingFile) (incoming : Nat) (d : Disk) : Bool :=
  f.written ≠ 0 && (f.isCrowded incoming || f.isOld d)

/-- Whether a name is taken, or that of its compressed form. -/
def isTaken (f : RotatingFile) (d : Disk) (p : Path) : Bool :=
  d.present p || (f.policy.compress && d.present (packedPath p))

/-- The largest number in a file name. -/
def indexLimit : Nat := UInt32.size - 1

/-- A file name with a number between its stem and its extension. -/
def numbered (p : Path) (index : Nat) : Path :=
  let (stem, extension) := splitName (p.fileName?.getD "")
  p.withFileName (stem ++ "." ++ toString index ++ extension)

/-- The first free name with a number from that one on, trying so many; and the number after it. -/
def search (taken : Path → Bool) (p : Path) : Nat → Nat → Path × Nat
  | 0, index => (numbered p index, min (index + 1) indexLimit)
  | n + 1, index =>
    if taken (numbered p index) then search taken p n (min (index + 1) indexLimit)
    else (numbered p index, min (index + 1) indexLimit)

/-- The name of the next file, given what the template gives now. A new name is taken as it is if it
is free; otherwise numbers are put into it, each only once. -/
def nextPath (f : RotatingFile) (d : Disk) (p : Path) : Path × RotatingFile :=
  if p ≠ f.base ∧ ¬ f.isTaken d p then (p, { f with base := p, nextIndex := 1 })
  else
    let f := if p ≠ f.base then { f with base := p, nextIndex := 1 } else f
    let (q, index) := search (f.isTaken d) p d.nodes.length f.nextIndex
    (q, { f with nextIndex := index })

/-- Hands what is kept back to the current file. -/
def flushWriter (f : RotatingFile) (d : Disk) : Except Refusal Unit × RotatingFile × Disk :=
  match f.writer with
  | none => (.ok (), f, d)
  | some w =>
    let (o, w, d) := w.flush d
    (o, { f with writer := some w }, d)

/-- The current file is full: it becomes a backup, and the oldest backups go. -/
def retire (f : RotatingFile) (next : Path) (w : Writer) (d : Disk) :
    RotatingFile × List String × Disk :=
  let written := d.size w.file
  let (backup, lines, d) :=
    if f.policy.compress then compressBackup f.path d else (f.path, [], d)
  let backups := f.backups ++ [backup]
  let (backups, more, d) := match f.policy.maxBackups with
    | some most => prune most backups d
    | none => (backups, [], d)
  ({ f with path := next, writer := some w, written, backups }, lines ++ more, d)

/-- Begins a new file. If the current file cannot be written out or the new one cannot be opened,
the current one stays. -/
def rotate (f : RotatingFile) (d : Disk) :
    Except Fault Unit × RotatingFile × List String × Disk :=
  match f.flushWriter d with
  | (.error r, f, d) =>
    (.error (.rotation f.path.text ("Failed to flush before rotation: " ++ r.text)), f, [], d)
  | (.ok (), f, d) =>
    match expandTemplate f.policy.template d with
    | (.error e, d) => (.error e, f, [], d)
    | (.ok p, d) =>
      let (next, f) := f.nextPath d p
      match openLog next d with
      | (.error e, d) =>
        (.error (.rotation next.text ("Failed to create new log file: " ++ e.message)), f, [], d)
      | (.ok w, d) =>
        let (f, lines, d) := f.retire next w d
        (.ok (), f, lines, d)

/-- Writes a payload to the current file. -/
def append (b : ByteArray) (f : RotatingFile) (d : Disk) : Outcome × RotatingFile × Disk :=
  match f.writer with
  | none => (closedOutcome name, f, d)
  | some w =>
    match w.write b d with
    | (.ok (), w, d) => (.ok (), { f with writer := some w, written := f.written + b.size }, d)
    | (.error r, w, d) => (Outcome.fault (systemFault r), { f with writer := some w }, d)

/-- Writes a payload, to a new file if one is due, unless the sink was closed. -/
def write (b : ByteArray) (f : RotatingFile) (d : Disk) :
    Outcome × RotatingFile × List String × Disk :=
  if f.closed then (closedOutcome name, f, [], d)
  else if f.isDue b.size d then
    match f.rotate d with
    | (.error e, f, lines, d) => (Outcome.fault e, f, lines, d)
    | (.ok (), f, lines, d) =>
      let (o, f, d) := f.append b d
      (o, f, lines, d)
  else
    let (o, f, d) := f.append b d
    (o, f, [], d)

/-- Hands what is kept back to the current file. -/
def flush (f : RotatingFile) (d : Disk) : Outcome × RotatingFile × Disk :=
  let (o, f, d) := f.flushWriter d
  (Outcome.ofExcept systemFault o, f, d)

/-- Hands what is kept back to the current file and gives the file up. -/
def close (f : RotatingFile) (d : Disk) : Outcome × RotatingFile × Disk :=
  if f.closed then (.ok (), f, d)
  else
    let (o, f, d) := f.flush d
    (o, { f with writer := none, closed := true }, d)

/-- What is reported when a sink that its owner gave up cannot be closed. -/
def abandonLine (e : Fault) : String :=
  "[LOGGER ERROR] Failed to close rotating file on drop: " ++ e.message

end RotatingFile

end Logging.Sink
