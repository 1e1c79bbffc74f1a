import ProviderScout.Number.Counter
import ProviderScout.Number.Quantity

namespace ProviderScout

/-- Totals over segments. Bytes and milliseconds are those of the successful ones. -/
structure Tally where
  successes : Nat
  failures : Nat
  bytes : Nat
  millis : Nat
deriving DecidableEq

namespace Tally

def zero : Tally := ⟨0, 0, 0, 0⟩

instance : Inhabited Tally := ⟨zero⟩

/-- The totals of two sets of segments together; each counter stops at its largest value. -/
def add (a b : Tally) : Tally where
  successes := Counter.add a.successes b.successes
  failures := Counter.add a.failures b.failures
  bytes := Counter.add a.bytes b.bytes
  millis := Counter.add a.millis b.millis

def success (bytes millis : Nat) : Tally := ⟨1, 0, bytes, millis⟩

def failure : Tally := ⟨0, 1, 0, 0⟩

def samples (t : Tally) : Nat := Counter.add t.successes t.failures

/-- Bytes per second over all successful segments, 0 if they took no time. -/
def averageSpeed (t : Tally) : Nat :=
  if t.millis = 0 then 0 else Nat.min (t.bytes * 1000 / t.millis) Counter.max

/-- The share of successes in percent, 0 if there are no segments. -/
def successRate (α : Type) [Quantity α] (t : Tally) : α :=
  if t.samples = 0 then (0.0 : α)
  else (100.0 : α) * Quantity.ofCount t.successes / Quantity.ofCount t.samples

end Tally

/-- Totals together with the smoothed recent speed in bytes per second. -/
structure Performance (α : Type) where
  tally : Tally
  speed : α

namespace Performance

variable {α : Type} [Quantity α]

def zero : Performance α := ⟨.zero, (0.0 : α)⟩

instance : Inhabited (Performance α) := ⟨zero⟩

def successRate (p : Performance α) : α := p.tally.successRate α

end Performance

end ProviderScout
