import Logging.Value

/-!
# Fields

Named values in the order in which their names first came. Every operation keeps the names
distinct.

* `insert` replaces in place, `insertIfAbsent` keeps what is there, `remove` keeps the order of the
  others, `mergeMissing` appends what is absent and `qualify` renames every key.
* `addIfAbsent` and `take` are `insertIfAbsent` and `remove` with what they tell.
-/

namespace Logging

/-- Named values in order. -/
structure Fields where
  entries : List (String × Value)
  deriving DecidableEq, Repr, Inhabited

namespace Fields

/-- No fields. -/
def empty : Fields := ⟨[]⟩

instance : EmptyCollection Fields := ⟨empty⟩

/-- The names, in order. -/
def keys (f : Fields) : List String := f.entries.map Prod.fst

def size (f : Fields) : Nat := f.entries.length

def isEmpty (f : Fields) : Bool := f.entries.isEmpty

/-- The value of a name. -/
def get? (f : Fields) (key : String) : Option Value :=
  (f.entries.find? fun e => e.1 = key).map Prod.snd

/-- Whether there is a field of that name. -/
def contains (f : Fields) (key : String) : Bool :=
  f.entries.any fun e => e.1 = key

/-- Sets a name in a list: in place if it is there, else at the end. -/
def put (key : String) (value : Value) : List (String × Value) → List (String × Value)
  | [] => [(key, value)]
  | (k, v) :: rest => if k = key then (k, value) :: rest else (k, v) :: put key value rest

/-- Sets the value of a name, in place if the name is there and else at the end. -/
def insert (f : Fields) (key : String) (value : Value) : Fields :=
  ⟨put key value f.entries⟩

/-- Adds a field unless there is one of that name. -/
def insertIfAbsent (f : Fields) (key : String) (value : Value) : Fields :=
  if f.contains key then f else ⟨f.entries ++ [(key, value)]⟩

/-- The same, with whether the field was added. -/
def addIfAbsent (f : Fields) (key : String) (value : Value) : Bool × Fields :=
  if f.contains key then (false, f) else (true, f.insertIfAbsent key value)

/-- Takes a field out. -/
def remove (f : Fields) (key : String) : Fields :=
  ⟨f.entries.eraseP fun e => e.1 = key⟩

/-- The same, with the value that the field had. -/
def take (f : Fields) (key : String) : Option Value × Fields :=
  match f.entries.find? fun e => e.1 = key with
  | some e => (some e.2, f.remove key)
  | none => (none, f)

/-- Inserts every field of the second list into the first. -/
def insertAll (f g : Fields) : Fields :=
  g.entries.foldl (fun acc e => acc.insert e.1 e.2) f

/-- Adds the fields of `g` whose names are absent. -/
def mergeMissing (f g : Fields) : Fields :=
  g.entries.foldl (fun acc e => acc.insertIfAbsent e.1 e.2) f

/-- Puts a prefix and a point in front of every name. -/
def qualify (f : Fields) (pre : String) : Fields :=
  ⟨f.entries.map fun e => (pre ++ "." ++ e.1, e.2)⟩

/-- The fields of a list, each inserted in turn. -/
def ofList (es : List (String × Value)) : Fields :=
  insertAll empty ⟨es⟩

/-- Equality of names, values and order. -/
def same (f g : Fields) : Bool :=
  f.size = g.size && (f.entries.zip g.entries).all fun (a, b) => a.1 = b.1 && a.2.same b.2

/-- The fields as `key=value`, parted by blanks. -/
def text (f : Fields) : String :=
  " ".intercalate (f.entries.map fun e => e.1 ++ "=" ++ e.2.text)

/-- The fields with the kinds of their values. -/
def shown (f : Fields) : String :=
  "Fields \x7b entries: [" ++
    ", ".intercalate (f.entries.map fun e => "(" ++ Text.quoted e.1 ++ ", " ++ e.2.shown ++ ")") ++
    "] \x7d"

/-- The fields as a JSON object, in order. -/
def toJson (f : Fields) : Json :=
  .object (f.entries.map fun e => (e.1, e.2.toJson))

end Fields

end Logging
