import Logging.Disk.Writer
import Logging.Outcome
import Logging.Sink.Destination

/-!
# File sinks

A file sink appends to one file.

* `openLog`: opens a log file with the directories around it.
* `File.write`, `File.flush`, `File.close`: the operations.
-/

namespace Logging.Sink

open Disk

/-- Opens a log file for appending; missing directories are made. -/
def openLog (p : Path) (d : Disk) : Except Fault Writer × Disk :=
  let made := match p.parent? with
    | none => Except.ok d
    | some q =>
      match d.makeDirectories q with
      | .ok d => .ok d
      | .error r => .error (Fault.operation "create log directory"
          ("Failed to create directory " ++ inQuotes q.text) r.text)
  match made with
  | .error f => (.error f, d)
  | .ok d =>
    match d.create p with
    | .ok (n, d) => (.ok { file := n }, d)
    | .error r =>
      (.error (.operation "open log file" ("Failed to open " ++ inQuotes p.text) r.text), d)

/-- A refusal of the system as a fault. -/
def systemFault (r : Refusal) : Fault := .system r.text

/-- A file that is written, until the sink is closed. -/
structure File where
  path : Path
  writer : Option Writer
  deriving Inhabited

namespace File

def name : String := "file"

/-- A sink for the file of that name. -/
def new (p : Path) (d : Disk) : Except Fault File × Disk :=
  match openLog p d with
  | (.ok w, d) => (.ok { path := p, writer := some w }, d)
  | (.error f, d) => (.error f, d)

/-- Writes a payload, unless the sink was closed. -/
def write (b : ByteArray) (f : File) (d : Disk) : Outcome × File × Disk :=
  match f.writer with
  | none => (closedOutcome name, f, d)
  | some w =>
    let (o, w, d) := w.write b d
    (Outcome.ofExcept systemFault o, { f with writer := some w }, d)

/-- Hands what is kept back to the file. -/
def flush (f : File) (d : Disk) : Outcome × File × Disk :=
  match f.writer with
  | none => (.ok (), f, d)
  | some w =>
    let (o, w, d) := w.flush d
    (Outcome.ofExcept systemFault o, { f with writer := some w }, d)

/-- Hands what is kept back to the file and gives the file up. -/
def close (f : File) (d : Disk) : Outcome × File × Disk :=
  let (o, f, d) := f.flush d
  (o, { f with writer := none }, d)

/-- What is reported when a sink that its owner gave up cannot be closed. -/
def abandonLine (f : File) (e : Fault) : String :=
  "[LOGGER ERROR] Failed to flush " ++ inQuotes f.path.text ++ " on drop: " ++ e.message

end File

end Logging.Sink
