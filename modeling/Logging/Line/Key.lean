/-!
# Keys of structured lines

* `outputKey`: the key under which a field is written. The names that a line uses for the record
  itself are kept from fields by a qualifier.
-/

namespace Logging.Line

/-- The keys under which a line holds the record's own parts. -/
def recordKeys : List String := ["timestamp", "level", "message"]

/-- The key of a field. -/
def outputKey (key : String) : String :=
  if key ∈ recordKeys then "fields." ++ key else key

end Logging.Line
