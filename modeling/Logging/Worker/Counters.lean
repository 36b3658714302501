import Logging.Number.Double

/-!
# What a worker counts

* `Counters`: items taken and refused, handled and given up, attempts repeated, and faults reported
  and dropped.
* `Counters.failureRate`: the share of the finished items that were given up, in percent.
-/

namespace Logging.Worker

open Number

/-- What a worker counts. -/
structure Counters where
  submitted : Nat := 0
  rejected : Nat := 0
  processed : Nat := 0
  failed : Nat := 0
  retries : Nat := 0
  reported : Nat := 0
  dropped : Nat := 0
  deriving DecidableEq, Repr, Inhabited

/-- The things that are counted. -/
inductive Counter where
  | submitted | rejected | processed | failed | retries | reported | dropped
  deriving DecidableEq, Repr

namespace Counters

/-- Nothing counted yet. -/
def zero : Counters := {}

def get (c : Counters) : Counter → Nat
  | .submitted => c.submitted
  | .rejected => c.rejected
  | .processed => c.processed
  | .failed => c.failed
  | .retries => c.retries
  | .reported => c.reported
  | .dropped => c.dropped

/-- Counts one more. -/
def bump (c : Counters) : Counter → Counters
  | .submitted => { c with submitted := c.submitted + 1 }
  | .rejected => { c with rejected := c.rejected + 1 }
  | .processed => { c with processed := c.processed + 1 }
  | .failed => { c with failed := c.failed + 1 }
  | .retries => { c with retries := c.retries + 1 }
  | .reported => { c with reported := c.reported + 1 }
  | .dropped => { c with dropped := c.dropped + 1 }

/-- Counts one more: the count before, and the counters after. -/
def record (c : Counters) (k : Counter) : Nat × Counters :=
  (c.get k, c.bump k)

/-- The share of the finished items that were given up, in percent; nothing while none is
finished. -/
def failureRate (c : Counters) : Double :=
  let failed := Float.ofNat c.failed
  let total := Float.ofNat c.processed + failed
  Double.ofFloat (if total == 0.0 then 0.0 else failed / total * 100.0)

end Counters

end Logging.Worker
