import Logging.Proofs.Network.Memories
import Logging.Proofs.Network.Closed
import Logging.Proofs.Network.Transparent
import Logging.Proofs.Rotation.Lossless
import Logging.Proofs.Sink.Delivery
import Logging.Proofs.Worker.Drain
import Logging.Proofs.Worker.Accounting
import Logging.Proofs.Sink.Gathering
import Logging.Proofs.Sink.Received
import Logging.Proofs.Line.Breaks
import Logging.Session.Loggers
import Logging.Session.Report
import Logging.Session.Sinks
import Logging.Session.Workers
import Logging.Proofs.Fields.Insert
import Logging.Proofs.Middleware.Derived
import Logging.Proofs.Middleware.Onion
import Logging.Proofs.Logger.Pipeline
import Logging.Proofs.Disk.Entries
import Logging.Proofs.Rotation.Packing
import Logging.Proofs.Rotation.Search
import Logging.Proofs.Worker.Ended
import Logging.Proofs.Rotation.Archive
import Logging.Proofs.Rotation.Lifetimes
import Logging.Proofs.Line.Json
import Logging.Proofs.Line.Logfmt
import Logging.Proofs.Line.Doubled
import Logging.Proofs.Redaction.Rules
import Logging.Proofs.Redaction.Hits
import Logging.Proofs.Redaction.Masks
import Logging.Proofs.Redaction.Stable
import Logging.Proofs.Redaction.Values
import Logging.Proofs.Redaction.Bearer
import Logging.Proofs.Redaction.Fold
import Logging.Proofs.Settings.RoundTrip
import Logging.Proofs.Middleware.Sharing
import Logging.Proofs.Network.Building
import Logging.Proofs.Logger.Refusals
import Logging.Proofs.Network.Open
import Logging.Proofs.Session.Resting
import Logging.Proofs.Session.Families
import Logging.Proofs.Fields.Edits
import Logging.Proofs.Rotation.Lasting
import Logging.Proofs.Rotation.Standstill
import Logging.Proofs.Sink.Isolation
import Logging.Proofs.Rotation.Templates
import Logging.Proofs.Rotation.Anywhere
import Logging.Proofs.Rotation.Cutting
import Logging.Proofs.Rotation.Greedy
import Logging.Proofs.Redaction.Nested
import Logging.Proofs.Worker.Retries
import Logging.Proofs.Rotation.Naming
import Logging.Proofs.Time.Order
