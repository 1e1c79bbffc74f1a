import ProviderScout.Number.Rounding
import ProviderScout.Performance.Row
import ProviderScout.Performance.Tally
import ProviderScout.Time.Instant

/-!
What is learnt about one provider for one job, outcome by outcome. A speed of 0 means that none is
known yet. A later speed that lies far from the known one counts as an outlier and does not change
it.
-/

namespace ProviderScout

/-- The live performance of a provider for a job. -/
structure Model (α : Type) where
  performance : Performance α
  /-- Whether something happened since the last save. -/
  dirty : Bool
  /-- The time of the last save. -/
  lastUsed : Option Instant

namespace Model

variable {α : Type} [Quantity α]

def fresh : Model α := ⟨.zero, false, none⟩

instance : Inhabited (Model α) := ⟨fresh⟩

/-- The speed of one segment in bytes per second, 0 if it took no time. -/
def segmentSpeed (bytes millis : Nat) : α :=
  if millis = 0 then (0.0 : α)
  else Quantity.ofCount bytes * (1000.0 : α) / Quantity.ofCount millis

/-- Whether a new speed is close enough to the known one to count: from a tenth to ten times. -/
def isPlausible (current new : α) : Bool :=
  decide (current * (0.1 : α) ≤ new) && decide (new ≤ current * (10.0 : α))

/-- The smoothed speed after a new one, which weighs `alpha`. -/
def smooth (alpha current new : α) : α :=
  if Quantity.isZero current then new
  else if isPlausible current new then alpha * new + ((1.0 : α) - alpha) * current
  else current

def recordSuccess (alpha : α) (bytes millis : Nat) (m : Model α) : Model α where
  performance := {
    tally := m.performance.tally.add (.success bytes millis)
    speed := smooth alpha m.performance.speed (segmentSpeed bytes millis) }
  dirty := true
  lastUsed := m.lastUsed

def recordFailure (m : Model α) : Model α where
  performance := { m.performance with tally := m.performance.tally.add .failure }
  dirty := true
  lastUsed := m.lastUsed

def tallyOfRow (r : StatsRow) : Tally where
  successes := Counter.ofColumn r.successes
  failures := Counter.ofColumn r.failures
  bytes := Counter.ofColumn r.bytes
  millis := Counter.ofColumn r.millis

def performanceOfRow (r : StatsRow) : Performance α :=
  ⟨tallyOfRow r, Quantity.ofCount (Counter.ofColumn r.speed)⟩

def ofRow (r : StatsRow) : Model α := ⟨performanceOfRow r, false, Instant.ofSecs? r.lastUsed.toInt⟩

/-- Adds the stored past to a model that has already counted. Its own speed goes before the
stored one. -/
def merge (r : StatsRow) (m : Model α) : Model α where
  performance := {
    tally := m.performance.tally.add (tallyOfRow r)
    speed :=
      if Quantity.isZero m.performance.speed then (performanceOfRow r).speed
      else m.performance.speed }
  dirty := true
  lastUsed := m.lastUsed

def markDirty (m : Model α) : Model α := { m with dirty := true }

def row (job : String) (provider : Nat) (now : Instant) (m : Model Float) : StatsRow where
  job := job
  provider := Column.ofCounter provider
  successes := Column.ofCounter m.performance.tally.successes
  failures := Column.ofCounter m.performance.tally.failures
  bytes := Column.ofCounter m.performance.tally.bytes
  millis := Column.ofCounter m.performance.tally.millis
  speed := Column.ofCounter (Counter.ofFloat m.performance.speed)
  lastUsed := Int64.ofInt now.secs

/-- Takes the row of a model to save, if something happened since the last time. The model counts
as saved from here on. -/
def persist (job : String) (provider : Nat) (now : Instant) (m : Model Float) :
    Option StatsRow × Model Float :=
  if m.dirty then (some (row job provider now m), { m with dirty := false, lastUsed := some now })
  else (none, m)

end Model

end ProviderScout
