import ProviderScout.Config.Validation
import ProviderScout.Engine.Persistence
import ProviderScout.Retry.Attempts
import ProviderScout.Statistics.Aggregator
import ProviderScout.Usage.Batching

namespace ProviderScout

/-- A service with its storage. -/
structure Service (σ : Type) where
  config : Config
  store : σ
  engine : Engine
  pipeline : Pipeline
  aggregator : Aggregator

/-- Why a service does not start. -/
inductive StartFault where
  | error (e : Error)
  /-- The start of a window cannot be represented. -/
  | windowOutOfRange

namespace Service

variable {σ : Type}

def batchingOf (config : Config) : Batching :=
  .ofSize config.usage.batchSize.toNat config.usage.batchWindow

def batching (s : Service σ) : Batching := batchingOf s.config

def isShuttingDown (s : Service σ) : Bool := s.pipeline.cancelled

/-- Whether a reported event would be lost. -/
def refusesEvents (s : Service σ) : Bool := !s.pipeline.queue.isOpen

def track (e : UsageEvent) (s : Service σ) : Service σ :=
  let queue := s.pipeline.queue.track s.config.usage.enabled e
  { s with pipeline := { s.pipeline with queue := queue } }

def wait (d : Duration) (s : Service σ) : Service σ :=
  { s with pipeline := { s.pipeline with clock := s.pipeline.clock + d.nanos } }

def withEngine {α : Type} (s : Service σ) (r : α × Engine × σ) : α × Service σ :=
  (r.1, { s with engine := r.2.1, store := r.2.2 })

variable [ModelStore σ] [EventStore σ]

/-- Stores batches one after the other. One that cannot be stored is lost. -/
def storeBatches (batches : List (List UsageEvent)) (store : σ) : σ :=
  batches.foldl (fun store batch => (EventStore.insertEvents batch store).2) store

/-- The service after its consumer handed over batches. -/
def withBatches (s : Service σ) (r : Pipeline × List (List UsageEvent)) : Service σ :=
  { s with pipeline := r.1, store := storeBatches r.2 s.store }

/-- Starts the service on a storage, if the settings are acceptable. All windows are counted before
anything else. -/
def start (config : Config) (now : Instant) (store : σ) : Except StartFault (Service σ) :=
  match config.validate with
  | .error e => .error (.error e)
  | .ok () =>
    match (Aggregator.ofWindows config.stats.windowsHours).refresh now store with
    | (none, _) => .error .windowOutOfRange
    | (some (_, aggregator), store) =>
      .ok ⟨config, store, .start config.affinity config.roles, .start, aggregator⟩

/-- Takes over the latest benchmarks and answers of how many providers there are any. -/
def refreshBenchmarks (now : Instant) (s : Service σ) : Except Error Nat × Service σ :=
  s.withEngine (s.engine.refreshBenchmarks now s.store)

def storeAfterLoads (store : σ) : Nat → σ
  | 0 => store
  | n + 1 => (ModelStore.loadRows (storeAfterLoads store n)).2

/-- Adds the stored past after a start, with further attempts if that fails in a way that may pass,
and then takes over the benchmarks. If a delay between attempts comes out bad nothing more is done.
`draw` is what chance adds to the waits. -/
def loadPast (draw : Nat → Float) (now : Instant) (s : Service σ) : Service σ :=
  let attempts := s.config.persistence.startupRetry.attempts
    (fun n => (s.engine.load (storeAfterLoads s.store n)).1) draw
  let last := s.engine.load (storeAfterLoads s.store (attempts.calls - 1))
  let s := (s.withEngine last).2
  match attempts.ending with
  | .answered _ => (s.refreshBenchmarks now).2
  | .badDelay => s

def setUpConsumer (s : Service σ) : Service σ :=
  s.withBatches (s.pipeline.run s.batching [.setUp])

def consume (s : Service σ) : Service σ := s.withBatches (s.pipeline.consume s.batching)

/-- Saves the models in which something happened and answers how many there were. -/
def persist (now : Instant) (s : Service σ) : Except Error Nat × Service σ :=
  s.withEngine (s.engine.persist now s.store)

/-- Counts all windows anew and answers for how many that succeeded. -/
def refreshStatistics (now : Instant) (s : Service σ) : Option Nat × Service σ :=
  match s.aggregator.refresh now s.store with
  | (none, store) => (none, { s with store := store })
  | (some (done, aggregator), store) =>
    (some done, { s with aggregator := aggregator, store := store })

def reset (job : Option String) (s : Service σ) : Except Error Int × Service σ :=
  s.withEngine (s.engine.reset job s.store)

/-- Stops the service: all events that were reported are stored unless the consumer breaks off, the
stored past is added if that has not been done, and all models are saved. Without the stored past
nothing is saved, so that what is new never takes the place of what is old. -/
def shutDown (now : Instant) (s : Service σ) : Except Error Unit × Service σ :=
  let s := s.withBatches (s.pipeline.shutDown s.batching)
  let s := (s.withEngine (s.engine.load s.store)).2
  let (saved, s) := s.withEngine (s.engine.flush now s.store)
  (saved.map fun _ => (), s)

/-- What the service does by itself until all its intervals are over: it stores the batch in the
making, saves, takes over the benchmarks and counts. -/
def settle (now : Instant) (s : Service σ) : Service σ :=
  let s := (s.consume.wait s.config.usage.batchWindow).consume
  let s := (s.persist now).2
  let s := (s.refreshBenchmarks now).2
  (s.refreshStatistics now).2

end Service

end ProviderScout
