import ProviderScout.Error.Basic
import ProviderScout.Performance.Row
import ProviderScout.Usage.Event

namespace ProviderScout

/-- Storage for models and benchmarks. -/
class ModelStore (σ : Type) where
  /-- All stored rows. -/
  loadRows : σ → Except Error (List StatsRow) × σ
  /-- Stores rows in place of those of the same job and provider. -/
  upsertRows : List StatsRow → σ → Except Error Unit × σ
  /-- Deletes the rows of a job, or all rows, and answers how many there were. -/
  deleteRows : Option String → σ → Except Error Nat × σ
  /-- The latest speed of each provider. A time that cannot be represented is taken as the
  present. -/
  latestSpeeds : Instant → σ → Except Error (List (BenchmarkSpeed Float)) × σ

/-- Storage for usage events. -/
class EventStore (σ : Type) where
  /-- Stores a batch of events. -/
  insertEvents : List UsageEvent → σ → Except Error Unit × σ
  /-- Counts the events from a time on by provider and operation. -/
  countsSince : Instant → σ → Except Error (List UsageCount) × σ

end ProviderScout
