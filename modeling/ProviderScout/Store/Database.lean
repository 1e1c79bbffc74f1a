import ProviderScout.Store.Schema
import ProviderScout.Store.Seam

namespace ProviderScout

/-- A database in use. -/
structure Database where
  schema : Schema
  isOpen : Bool

namespace Database

/-- Takes a file into use and brings it up to date. -/
def openSchema (c : Schema) : Except Error Database × Schema :=
  match c.update with
  | (.ok (), c) => (.ok ⟨c, true⟩, c)
  | (.error e, c) => (.error e, c)

def fresh : Database := ⟨Schema.empty.update.2, true⟩

def close (d : Database) : Database := { d with isOpen := false }

def table {τ : Type} (d : Database) (name : String) (t : Option τ) : Except QueryFault τ :=
  if !d.isOpen then .error .closed
  else match t with
    | none => .error (.sql (.noSuchTable name))
    | some t => .ok t

theorem table_eq_ok_iff {τ : Type} {d : Database} {name : String} {t? : Option τ} {t : τ} :
    d.table name t? = .ok t ↔ d.isOpen = true ∧ t? = some t := by
  obtain ⟨_, _ | _⟩ := d <;> cases t? <;> simp [table]

theorem table_eq_closed_iff {τ : Type} {d : Database} {name : String} {t? : Option τ} :
    d.table name t? = .error .closed ↔ d.isOpen = false := by
  obtain ⟨_, _ | _⟩ := d <;> cases t? <;> simp [table]

def statsTable (d : Database) : Except QueryFault StatsTable :=
  d.table Schema.statsName d.schema.stats

def eventTable (d : Database) : Except QueryFault EventTable :=
  d.table EventTable.name d.schema.events

def benchmarkTable (d : Database) : Except QueryFault BenchmarkTable :=
  d.table BenchmarkTable.name d.schema.benchmarks

def withStats (d : Database) (t : StatsTable) : Database :=
  { d with schema := { d.schema with stats := some t } }

def withEvents (d : Database) (t : EventTable) : Database :=
  { d with schema := { d.schema with events := some t } }

def withBenchmarks (d : Database) (t : BenchmarkTable) : Database :=
  { d with schema := { d.schema with benchmarks := some t } }

def loadRows (d : Database) : Except Error (List StatsRow) :=
  (d.statsTable.map fun t => t.rows.values).mapError (QueryFault.error "load provider stats")

def jobRows (job : String) (d : Database) : Except Error (List StatsRow) :=
  (d.statsTable.map fun t => t.jobRows job).mapError
    (QueryFault.error "get provider stats for job")

/-- What is tried where a statement of a transaction fails: connections are asked for first. -/
def transactionTask (task : String) : QueryFault → String
  | .closed => "begin transaction"
  | .sql _ => task

def upsertRows (rows : List StatsRow) (d : Database) : Except Error Unit × Database :=
  if rows.isEmpty then (.ok (), d)
  else match d.statsTable with
    | .error f => (.error (f.error (transactionTask "upsert provider stats" f)), d)
    | .ok t => (.ok (), d.withStats (rows.foldl StatsTable.upsert t))

def deleteRows (job : Option String) (d : Database) : Except Error Nat × Database :=
  match d.statsTable with
  | .error f => (.error (f.error "delete provider stats"), d)
  | .ok t =>
    let kept := StatsTable.delete t job
    (.ok (t.rows.size - kept.rows.size), d.withStats kept)

def insertBenchmark (r : BenchmarkResult) (d : Database) : Except Error Nat × Database :=
  match d.benchmarkTable with
  | .error f => (.error (f.error "insert benchmark result"), d)
  | .ok t => match t.insert r with
    | .error f => (.error ((QueryFault.sql f).error "insert benchmark result"), d)
    | .ok (id, t) => (.ok id, d.withBenchmarks t)

def latestBenchmarks (d : Database) : Except Error (List StoredBenchmark) :=
  (d.benchmarkTable.map fun t => t.latest.values).mapError
    (QueryFault.error "load latest benchmark speeds")

/-- A stored benchmark as a speed; one of a negative provider is none. A time that cannot be
represented is taken as the present. -/
def speed? (now : Instant) (b : StoredBenchmark) : Option (BenchmarkSpeed Float) :=
  if b.result.provider < 0 then none
  else some ⟨b.result.provider.toInt.toNat, b.result.mbps,
    (Instant.ofSecs? b.result.createdAt.toInt).getD now⟩

def latestSpeeds (now : Instant) (d : Database) : Except Error (List (BenchmarkSpeed Float)) :=
  d.latestBenchmarks.map fun rows => rows.filterMap (speed? now)

def insertError : SqlFault → Error
  | .notUnique column => .database .constraintViolation
    ("Duplicate usage event id: " ++ (SqlFault.notUnique column).message)
  | f => (QueryFault.sql f).error "insert usage events"

/-- Stores events, all or none. -/
def insertEvents (events : List UsageEvent) (d : Database) : Except Error Unit × Database :=
  if events.isEmpty then (.ok (), d)
  else match d.eventTable with
    | .error f => (.error (f.error (transactionTask "insert usage events" f)), d)
    | .ok t => match t.insertAll (events.map .ofEvent) with
      | .error f => (.error (insertError f), d)
      | .ok t => (.ok (), d.withEvents t)

def countsSince (second : Int) (d : Database) : Except Error (List UsageCount) :=
  (d.eventTable.map fun t => (t.countsSince second).entries.map fun (k, n) =>
    ⟨k.host, k.kind, k.operation, Column.ofCounter n⟩).mapError
    (QueryFault.error "aggregate usage events")

def countEvents (d : Database) : Except Error Nat :=
  (d.eventTable.map fun t => t.rows.length).mapError (QueryFault.error "count usage events")

def refuseHost (host : String) (d : Database) : Database :=
  match d.schema.events with
  | none => d
  | some t => d.withEvents { t with refusedHosts := host :: t.refusedHosts }

instance : ModelStore Database where
  loadRows d := (d.loadRows, d)
  upsertRows := upsertRows
  deleteRows := deleteRows
  latestSpeeds now d := (d.latestSpeeds now, d)

instance : EventStore Database where
  insertEvents := insertEvents
  countsSince since d := (d.countsSince since.secs, d)

end Database

end ProviderScout
