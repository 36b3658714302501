/-!
# Faults

* `Fault`: the causes for which a log call or a configuration fails.
* `Fault.message`: what is said of a fault.
* `Fault.source?`: the message of the fault beneath, if there is one.
* `PanicPayload`: what a component that broke off left behind.
-/

namespace Logging

/-- Why something failed. -/
inductive Fault where
  /-- The system refused an operation. -/
  | operation (doing what reason : String)
  /-- The system refused. -/
  | system (reason : String)
  /-- A text is not JSON. -/
  | json (detail : String)
  | queueFull (current most : Nat)
  | workerStopped (name : String)
  | workerPanicked (name detail : String)
  | sinkClosed (name : String)
  | sinkPanicked (name detail : String)
  | configuration (component detail : String)
  | rotation (path detail : String)
  | format (kind detail : String)
  /-- A redaction pattern cannot be read. -/
  | pattern (pattern detail : String)
  | unknownSink (kind : String)
  | other (message : String)
  deriving DecidableEq, Repr, Inhabited

/-- A text between single quotes. -/
def inQuotes (s : String) : String := "'" ++ s ++ "'"

namespace Fault

/-- What is said of a fault. -/
def message : Fault → String
  | operation doing what _ => "IO error while " ++ doing ++ ": " ++ what
  | system reason => "IO error: " ++ reason
  | json detail => "JSON error: " ++ detail
  | queueFull current most =>
    "Worker queue full: " ++ toString current ++ "/" ++ toString most ++ " items buffered"
  | workerStopped name => "Worker " ++ inQuotes name ++ " is stopped"
  | workerPanicked name detail => "Worker " ++ inQuotes name ++ " panicked: " ++ detail
  | sinkClosed name => "Sink " ++ inQuotes name ++ " is closed"
  | sinkPanicked name detail => "Sink " ++ inQuotes name ++ " panicked: " ++ detail
  | configuration component detail => "Invalid configuration for " ++ component ++ ": " ++ detail
  | rotation path detail => "File rotation failed for " ++ inQuotes path ++ ": " ++ detail
  | format kind detail => "Formatter error (" ++ kind ++ "): " ++ detail
  | pattern p detail => "Invalid redaction pattern " ++ inQuotes p ++ ": " ++ detail
  | unknownSink kind => "Unknown sink kind " ++ inQuotes kind
  | other message => message

/-- The name of a fault's kind. -/
def kindName : Fault → String
  | operation .. => "IoOperation"
  | system .. => "IoError"
  | json .. => "JsonError"
  | queueFull .. => "QueueFull"
  | workerStopped .. => "WorkerStopped"
  | workerPanicked .. => "WorkerPanicked"
  | sinkClosed .. => "SinkClosed"
  | sinkPanicked .. => "SinkPanicked"
  | configuration .. => "InvalidConfiguration"
  | rotation .. => "FileRotationError"
  | format .. => "FormatterError"
  | pattern .. => "InvalidPattern"
  | unknownSink .. => "UnknownSink"
  | other .. => "Other"

/-- What the system said beneath a fault. -/
def source? : Fault → Option String
  | operation _ _ reason => some reason
  | system reason => some reason
  | json detail => some detail
  | _ => none

end Fault

/-- What a component that broke off left behind: a message, or something without one. -/
inductive PanicPayload where
  | message (text : String)
  | unreadable
  deriving DecidableEq, Repr, Inhabited

/-- The message of a payload, as faults give it. -/
def PanicPayload.text : PanicPayload → String
  | message text => text
  | unreadable => "Unknown panic"

end Logging
