import Logging.Fields

/-!
# Contexts

Values that surround a log call and are not part of its record, such as the name of a trace.

* `Context.withValue`, `Context.get?`: setting and reading a value.
* `Context.traceId`, `Context.requestId`: the values that must be text.
-/

namespace Logging

/-- The values that surround a log call. -/
structure Context where
  values : Fields
  deriving DecidableEq, Repr, Inhabited

namespace Context

/-- No values. -/
def empty : Context := ⟨.empty⟩

def traceKey : String := "trace_id"
def spanKey : String := "span_id"
def requestKey : String := "request_id"
def correlationKey : String := "correlation_id"

/-- The names that are copied into records unless others are chosen. -/
def standardKeys : List String := [traceKey, spanKey, requestKey, correlationKey]

/-- Sets a value. -/
def withValue (c : Context) (key : String) (value : Value) : Context :=
  ⟨c.values.insert key value⟩

/-- Sets every value of a list. -/
def withValues (c : Context) (values : Fields) : Context :=
  ⟨c.values.insertAll values⟩

def get? (c : Context) (key : String) : Option Value := c.values.get? key

/-- The value of a name, if it is text. -/
def string? (c : Context) (key : String) : Option String :=
  (c.get? key).bind Value.string?

/-- The name of the trace, if it is text. -/
def traceId (c : Context) : Option String := c.string? traceKey

/-- The name of the request, if it is text. -/
def requestId (c : Context) : Option String := c.string? requestKey

def isEmpty (c : Context) : Bool := c.values.isEmpty

end Context

end Logging
