import Logging.Disk.Path
import Logging.Time.Zone

/-!
# Disks

A disk holds files and directories under names. A file that is open stays when its name goes.

* `Disk.create`: opens a file, or makes an empty one.
* `Disk.append`, `Disk.read`, `Disk.remove`, `Disk.rename`: operations on files.
* `Disk.makeDirectories`, `Disk.removeTree`: operations on directories.
* `Disk.listing`: what is below a place.

Changes happen at one moment, except that a file can be made older. The clock may show anything each
time that it is read (`Disk.tick`, `Disk.reading`), which is done for the names of files.

The system takes all bytes of an `append` or none of them: a device that takes some and then fails
is none of these disks.
-/

namespace Logging

namespace Disk

/-- Why the system refuses an operation. -/
inductive Refusal where
  | notFound | notDirectory | isDirectory | noSpace | alreadyThere | nameTooLong | badName
  deriving DecidableEq, Repr, Inhabited

/-- What the system says. -/
def Refusal.text : Refusal → String
  | notFound => "No such file or directory (os error 2)"
  | notDirectory => "Not a directory (os error 20)"
  | isDirectory => "Is a directory (os error 21)"
  | noSpace => "No space left on device (os error 28)"
  | alreadyThere => "File exists (os error 17)"
  | nameTooLong => "File name too long (os error 36)"
  | badName => "file name contained an unexpected NUL byte"

/-- What a file holds: perhaps the compressed form of some bytes, and plain bytes behind it. -/
structure Contents where
  packed : Option ByteArray := none
  plain : ByteArray := .empty
  deriving Inhabited

namespace Contents

/-- Every byte, with the compressed ones as they were. -/
def unpacked (c : Contents) : ByteArray := c.packed.getD .empty ++ c.plain

/-- The compressed form. -/
def pack (c : Contents) : Contents := { packed := some c.unpacked }

end Contents

/-- A file. -/
structure FileData where
  contents : Contents := {}
  /-- How many seconds ago the file was changed. -/
  age : Nat := 0
  /-- Whether there is no room for any byte. -/
  full : Bool := false
  deriving Inhabited

/-- What stands under a name. -/
inductive Node where
  | directory
  /-- The file with that number. -/
  | file (n : Nat)
  deriving DecidableEq, Repr, Inhabited

end Disk

/-- Files and directories. -/
structure Disk where
  nodes : List (Disk.Location × Disk.Node)
  files : Array Disk.FileData
  /-- What the clock shows, each time that it is read. -/
  clock : Nat → Time.Reading := fun _ => default
  /-- How often it was read. -/
  ticks : Nat := 0
  deriving Inhabited

namespace Disk

/-- A disk with an empty home directory and the device `/dev/full`, which takes no bytes. -/
def fresh (home : String) (clock : Nat → Time.Reading) : Disk where
  clock
  nodes := [([""], .directory), (["", "dev"], .directory), (["", "dev", "full"], .file 0),
    ((Path.ofText home).location, .directory)]
  files := #[{ full := true }]

/-- What stands under a name. The place where the program runs is a directory. -/
def node? (d : Disk) (l : Location) : Option Node :=
  if l = [] then some .directory else d.nodes.lookup l

def isDirectory (d : Disk) (l : Location) : Bool := d.node? l = some .directory

/-- The longest name that the system takes, in bytes. -/
def nameLimit : Nat := 255

/-- What is wrong with the names on the way to a place. -/
def badName? (l : Location) : Option Refusal :=
  if l.any (fun name => name.toList.contains '\x00') then some .badName
  else if l.any (fun name => nameLimit < name.utf8ByteSize) then some .nameTooLong
  else none

/-- Whether something stands under a path. -/
def present (d : Disk) (p : Path) : Bool :=
  match d.node? p.location with
  | some .directory => true
  | some (.file _) => p.endsInName
  | none => false

/-- Puts something under a name. -/
def put (l : Location) (n : Node) (d : Disk) : Disk :=
  { d with nodes := d.nodes.filter (fun e => e.1 ≠ l) ++ [(l, n)] }

/-- Takes away what stands under a name. -/
def erase (l : Location) (d : Disk) : Disk :=
  { d with nodes := d.nodes.filter fun e => e.1 ≠ l }

/-- Makes the directories of a place that are missing, the outermost first. -/
def makeDirectoriesFrom : Location → List String → Disk → Except Refusal Disk
  | _, [], d => .ok d
  | way, name :: rest, d =>
    let here := way ++ [name]
    match d.node? here with
    | some .directory => makeDirectoriesFrom here rest d
    | some (.file _) => .error (if rest = [] then .alreadyThere else .notDirectory)
    | none => makeDirectoriesFrom here rest (d.put here .directory)

/-- Makes a directory and those around it, as far as they are missing. -/
def makeDirectories (p : Path) (d : Disk) : Except Refusal Disk :=
  match badName? p.location with
  | some r => .error r
  | none => makeDirectoriesFrom [] p.location d

/-- Why nothing can stand at a place, if the directory around it is missing. -/
def noDirectory? (d : Disk) (l : Location) : Option Refusal :=
  match d.node? l.dropLast with
  | some .directory => none
  | some (.file _) => some .notDirectory
  | none => some .notFound

/-- Opens the file of that name, or makes an empty one. -/
def create (p : Path) (d : Disk) : Except Refusal (Nat × Disk) :=
  let l := p.location
  match badName? l with
  | some r => .error r
  | none =>
    match d.node? l with
    | some .directory => .error (if p.pieces = [""] then .notFound else .isDirectory)
    | some (.file n) => if p.endsInName then .ok (n, d) else .error .notDirectory
    | none =>
      match d.noDirectory? l with
      | some r => .error r
      | none =>
        if p.endsInName then
          .ok (d.files.size, { d with files := d.files.push {} }.put l (.file d.files.size))
        else .error .isDirectory

/-- A file by its number. -/
def file (d : Disk) (n : Nat) : FileData := d.files.getD n {}

/-- Changes a file. -/
def setFile (n : Nat) (f : FileData) (d : Disk) : Disk :=
  { d with files := d.files.setIfInBounds n f }

/-- Appends bytes to a file; it is new from then on. -/
def append (n : Nat) (b : ByteArray) (d : Disk) : Except Refusal Disk :=
  let f := d.file n
  if b.isEmpty then .ok d
  else if f.full then .error .noSpace
  else .ok (d.setFile n
    { f with contents := { f.contents with plain := f.contents.plain ++ b }, age := 0 })

/-- The size of a file, in bytes. -/
def size (d : Disk) (n : Nat) : Nat := (d.file n).contents.unpacked.size

/-- Opens the file of that name with nothing in it. -/
def createEmpty (p : Path) (d : Disk) : Except Refusal (Nat × Disk) :=
  match d.create p with
  | .error r => .error r
  | .ok (n, d) => .ok (n, if (d.file n).full then d else d.setFile n {})

/-- The file of that name, for reading; a directory can be opened and not be read. -/
def opened (p : Path) (d : Disk) : Except Refusal Node :=
  match d.node? p.location with
  | some n => if d.present p then .ok n else .error .notDirectory
  | none => .error ((d.noDirectory? p.location).getD .notFound)

/-- What an opened file holds. -/
def read (d : Disk) : Node → Except Refusal Contents
  | .file n => .ok (d.file n).contents
  | .directory => .error .isDirectory

/-- Takes the name of a file away. -/
def remove (p : Path) (d : Disk) : Except Refusal Disk :=
  match d.opened p with
  | .ok (.file _) => .ok (d.erase p.location)
  | .ok .directory => .error .isDirectory
  | .error r => .error r

/-- Takes a directory away, with everything in it. -/
def removeTree (p : Path) (d : Disk) : Except Refusal Disk :=
  match d.node? p.location with
  | some .directory =>
    .ok { d with nodes := d.nodes.filter fun e => !(p.location.isPrefixOf e.1) }
  | some (.file _) => .error .notDirectory
  | none => .error .notFound

/-- Gives a file another name; a file of that name goes. -/
def rename (source target : Path) (d : Disk) : Except Refusal Disk :=
  match d.node? source.location, d.node? target.location with
  | none, _ => .error .notFound
  | some (.file _), some .directory => .error .isDirectory
  | some n, _ => .ok ((d.erase source.location).put target.location n)

/-- Writes a file anew. -/
def writeFile (p : Path) (b : ByteArray) (d : Disk) : Except Refusal Disk :=
  match d.createEmpty p with
  | .error r => .error r
  | .ok (n, d) => d.append n b

/-- Writes a file anew, with the directories around it. -/
def seed (p : Path) (b : ByteArray) (d : Disk) : Except Refusal Disk :=
  match p.parent? with
  | none => d.writeFile p b
  | some q =>
    match d.makeDirectories q with
    | .ok d => d.writeFile p b
    | .error r => .error r

/-- What the file of that name holds, if it can be read. -/
def contents? (p : Path) (d : Disk) : Option Contents :=
  match d.opened p with
  | .ok n => (d.read n).toOption
  | .error _ => none

/-- Makes a file as old as so many seconds. -/
def setAge (p : Path) (seconds : Nat) (d : Disk) : Except Refusal Disk :=
  match d.opened p with
  | .ok (.file n) => .ok (d.setFile n { d.file n with age := seconds })
  | .ok .directory => .ok d
  | .error r => .error r

/-- The clock is read once more. -/
def tick (d : Disk) : Disk := { d with ticks := d.ticks + 1 }

/-- What the clock shows. -/
def reading (d : Disk) : Time.Reading := d.clock d.ticks

/-- What is below a place, by the rest of the way. -/
def listing (home : Location) (d : Disk) : List (Location × Option Contents) :=
  d.nodes.filterMap fun (l, n) =>
    if home.isPrefixOf l ∧ l ≠ home then
      some (l.drop home.length,
        match n with
        | .directory => none
        | .file n => some (d.file n).contents)
    else none

end Disk

end Logging
