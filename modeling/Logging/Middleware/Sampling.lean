import Logging.Fault
import Logging.Level
import Logging.Number.Double

/-!
# Sampling

A sampler lets a part of the records through, and every record of the levels that are exempt.

* `Sampler.decide`: lets the first record through and then each time the last of so many.
* `RandomSampler.keeps`: lets records through at a rate.
* `SampleCounts`: how many were let through and dropped.
-/

namespace Logging

open Number

/-- A counter after one more. It has 64 bits and begins again at zero. -/
def tally (n : Nat) : Nat := (n + 1) % UInt64.size

/-- How many records were let through and dropped, and how many there were. -/
structure SampleCounts where
  sampled : Nat := 0
  dropped : Nat := 0
  total : Nat := 0
  deriving DecidableEq, Repr, Inhabited

namespace SampleCounts

/-- Counts a record that was let through or dropped. -/
def record (kept : Bool) (c : SampleCounts) : SampleCounts :=
  if kept then { c with sampled := tally c.sampled, total := tally c.total }
  else { c with dropped := tally c.dropped, total := tally c.total }

/-- The share of the records that were let through; one while there were none. -/
def rate (c : SampleCounts) : Double :=
  if c.total = 0 then Double.ofNat 1
  else Double.ofFloat (Float.ofNat c.sampled / Float.ofNat c.total)

end SampleCounts

/-- Lets one record of so many through. -/
structure Sampler where
  every : Nat
  /-- Records of these levels are let through and not counted off. -/
  exempt : List Level
  /-- How many records were counted off. -/
  seen : Nat := 0
  counts : SampleCounts := {}
  deriving DecidableEq, Repr, Inhabited

namespace Sampler

def new (every : Nat) (exempt : List Level) : Except Fault Sampler :=
  if every = 0 then .error (.configuration "Sampler" "n must be at least 1")
  else .ok { every, exempt }

/-- Whether a record of that level is let through. -/
def keeps (s : Sampler) (l : Level) : Bool := s.exempt.contains l || s.seen % s.every = 0

/-- Decides about a record of that level. -/
def decide (s : Sampler) (l : Level) : Bool × Sampler :=
  let kept := s.keeps l
  (kept,
    { s with
      seen := if s.exempt.contains l then s.seen else tally s.seen
      counts := s.counts.record kept })

end Sampler

/-- Lets records through at a rate. -/
structure RandomSampler where
  rate : Double
  /-- Records of these levels are let through. -/
  exempt : List Level
  /-- How many numbers were drawn. -/
  drawn : Nat := 0
  counts : SampleCounts := {}
  deriving DecidableEq, Repr, Inhabited

namespace RandomSampler

def new (rate : Double) (exempt : List Level) : Except Fault RandomSampler :=
  if 0.0 ≤ rate.toFloat ∧ rate.toFloat ≤ 1.0 then .ok { rate, exempt }
  else
    .error (.configuration "RandomSampler"
      ("rate must be within 0.0..=1.0, got " ++ rate.text .plain))

/-- Whether a record of that level is let through without a number being drawn. -/
def isFree (s : RandomSampler) (l : Level) : Bool := s.exempt.contains l || 1.0 ≤ s.rate.toFloat

/-- Whether a number is drawn for a record of that level. -/
def draws (s : RandomSampler) (l : Level) : Bool := !s.isFree l && 0.0 < s.rate.toFloat

/-- Whether a record of that level is let through. What is drawn, one number after the other, are
numbers from zero to one. -/
def keeps (s : RandomSampler) (draw : Nat → Double) (l : Level) : Bool :=
  s.isFree l || (0.0 < s.rate.toFloat && (draw s.drawn).toFloat < s.rate.toFloat)

/-- Decides about a record of that level. -/
def decide (s : RandomSampler) (draw : Nat → Double) (l : Level) : Bool × RandomSampler :=
  let kept := s.keeps draw l
  (kept,
    { s with
      drawn := if s.draws l then s.drawn + 1 else s.drawn
      counts := s.counts.record kept })

end RandomSampler

end Logging
