import Logging.Line.Format
import Logging.Middleware.Stage
import Logging.Network.Basic

/-!
# Chains

A chain is a way through stages with its end. Chains are derived from others: with one more stage,
with attributes that every record gets, and with a group, whose name stands in front of the names of
fields.

* `Chain.withStage`, `Chain.withAttributes`, `Chain.withGroup`: deriving.
* `Chain.attach`: a record at the end of its way, with attributes and groups.
* `Chain.handle`: sends a record on its way.
* `ChainEnd.handle`: the ends that a way may have.
-/

namespace Logging

/-- Where a record's way ends. -/
inductive ChainEnd where
  /-- The record is told of. -/
  | capture
  /-- It fails. -/
  | fail (message : String)
  /-- The line of the record is written to a sink. -/
  | write (format : Line.Format) (sink : SinkId)
  deriving DecidableEq, Repr

namespace ChainEnd

/-- What becomes of a record at the end. -/
def handle (e : ChainEnd) (r : Record) (w : Network) : Outcome × Network :=
  match e with
  | capture => (.ok (), w.emit (.terminal r))
  | fail message => (Outcome.fault (.other message), w)
  | write format sink => w.write sink (format.bytes r)

/-- The sink at the end. -/
def sink? : ChainEnd → Option SinkId
  | write _ sink => some sink
  | _ => none

end ChainEnd

/-- A way through stages to an end. -/
structure Chain where
  stages : List Nat
  arrival : ChainEnd
  /-- What every record gets; the names have their groups in front. -/
  attributes : Fields := .empty
  /-- The groups that are open, the outermost first. -/
  groups : List String := []
  deriving DecidableEq, Repr

namespace Chain

/-- The names of the groups, joined. -/
def groupName (c : Chain) : String := ".".intercalate c.groups

/-- Fields with the open groups in front of their names. -/
def qualify (c : Chain) (f : Fields) : Fields :=
  if c.groups.isEmpty then f else f.qualify c.groupName

/-- The chain with one more stage at its end. -/
def withStage (c : Chain) (id : Nat) : Chain := { c with stages := c.stages ++ [id] }

/-- The chain that gives these fields to every record, if there are any. -/
def withAttributes (c : Chain) (f : Fields) : Chain :=
  if f.isEmpty then c else { c with attributes := c.attributes.insertAll (c.qualify f) }

/-- The chain with one more group, unless the name is empty. -/
def withGroup (c : Chain) (name : String) : Chain :=
  if name = "" then c else { c with groups := c.groups ++ [name] }

/-- A record at the end of its way. Where there are no attributes and no groups it stays as it is;
otherwise its fields are put into the groups, and win over attributes. -/
def attach (c : Chain) (r : Record) : Record :=
  if c.attributes.isEmpty && c.groups.isEmpty then r
  else { r with fields := c.attributes.insertAll (c.qualify r.fields) }

/-- Sends a record on its way. -/
def handle (draws : Draws) (c : Chain) : Way Network :=
  onward draws (fun r w => c.arrival.handle (c.attach r) w) c.stages

/-- The chain with its parts. -/
def shown (c : Chain) : String :=
  "MiddlewareChain \x7b middleware: " ++ toString c.stages.length ++ ", attrs: " ++
    c.attributes.shown ++ ", groups: [" ++ ", ".intercalate (c.groups.map Text.quoted) ++ "] \x7d"

end Chain

end Logging
