import ProviderScout.Store.Tables

/-!
What a database file contains, and the migrations that bring it up to date. Each migration happens
whole or not at all, and its version is recorded with it.
-/

namespace ProviderScout

/-- The table of the migrations that have happened. -/
inductive VersionTable where
  | missing
  | proper (versions : SortedMap Int64 Unit)
  /-- A table of that name without the column for the version. -/
  | withoutVersion
  /-- A table of that name without the column for the time. -/
  | withoutTime (versions : SortedMap Int64 Unit)

/-- An index and the table that it belongs to. -/
structure Index where
  name : String
  table : String
deriving DecidableEq

/-- The contents of a database file. -/
structure Schema where
  stats : Option StatsTable
  events : Option EventTable
  benchmarks : Option BenchmarkTable
  versions : VersionTable
  indexes : List Index

namespace Schema

def empty : Schema := ⟨none, none, none, .missing, []⟩

instance : Inhabited Schema := ⟨empty⟩

def statsName : String := "nzb_provider_stats"

def versionName : String := "schema_version"

def tableNames (c : Schema) : List String :=
  (if c.stats.isSome then [statsName] else [])
    ++ (if c.benchmarks.isSome then [BenchmarkTable.name] else [])
    ++ (if c.events.isSome then [EventTable.name] else [])
    ++ (match c.versions with
      | .missing => []
      | _ => [versionName])

/-- A change that a migration makes. -/
inductive Step where
  | createStats
  | createEvents
  | createBenchmarks
  | createIndex (index : Index) (label : String)

namespace Step

def label : Step → String
  | .createStats => "create " ++ statsName ++ " table"
  | .createEvents => "create " ++ EventTable.name ++ " table"
  | .createBenchmarks => "create " ++ BenchmarkTable.name ++ " table"
  | .createIndex _ label => "create " ++ label ++ " index"

end Step

def indexNames (c : Schema) : List String := c.indexes.map Index.name

def newTable (c : Schema) (name : String) : Except SqlFault Unit :=
  if c.tableNames.contains name then .error (.tableExists name)
  else if c.indexNames.contains name then .error (.nameIsIndex name)
  else .ok ()

def apply (c : Schema) : Step → Except SqlFault Schema
  | .createStats => (c.newTable statsName).map fun _ => { c with stats := some ∅ }
  | .createEvents => (c.newTable EventTable.name).map fun _ => { c with events := some .empty }
  | .createBenchmarks =>
    (c.newTable BenchmarkTable.name).map fun _ => { c with benchmarks := some .empty }
  | .createIndex index _ =>
    if c.indexNames.contains index.name then .error (.indexExists index.name)
    else .ok { c with indexes := c.indexes ++ [index] }

def recordVersion (c : Schema) (version : Int64) : Except SqlFault Schema :=
  match c.versions with
  | .proper versions => .ok { c with versions := .proper (versions.insert version ()) }
  | .missing => .error (.noSuchTable versionName)
  | .withoutVersion => .error (.columnMissing versionName "version")
  | .withoutTime _ => .error (.columnMissing versionName "applied_at")

/-- Changes that happen together. -/
structure Migration where
  version : Int64
  steps : List Step

def migrations : List Migration := [
  ⟨1, [.createStats]⟩,
  ⟨2, [.createEvents,
    .createIndex ⟨"idx_usage_events_created_at", EventTable.name⟩ "created_at",
    .createIndex ⟨"idx_usage_events_provider_host", EventTable.name⟩ "provider_host",
    .createIndex ⟨"idx_usage_events_operation_type", EventTable.name⟩ "operation_type"]⟩,
  ⟨3, [.createBenchmarks,
    .createIndex ⟨"idx_benchmarks_provider", BenchmarkTable.name⟩ "benchmark provider"]⟩]

/-- The error of a migration; `task` tells what was tried. -/
def migrationError (task : String) (f : SqlFault) : Error :=
  .database .migrationFailed ("Failed to " ++ task ++ ": " ++ f.message)

/-- Makes the changes of a migration and records it. -/
def Migration.run (m : Migration) (c : Schema) : Except Error Schema := do
  let c ← m.steps.foldlM (fun c s => (c.apply s).mapError (migrationError s.label)) c
  (c.recordVersion m.version).mapError (migrationError "record migration")

/-- Runs migrations until one fails. One that fails leaves nothing of itself behind. -/
def migrate : List Migration → Schema → Except Error Unit × Schema
  | [], c => (.ok (), c)
  | m :: rest, c => match m.run c with
    | .ok c => migrate rest c
    | .error e => (.error e, c)

def ensureVersions (c : Schema) : Except SqlFault Schema :=
  match c.versions with
  | .missing => (c.newTable versionName).map fun _ => { c with versions := .proper ∅ }
  | _ => .ok c

/-- The last migration that has happened, 0 if none has. -/
def currentVersion (c : Schema) : Except SqlFault Int64 :=
  match c.versions with
  | .missing => .error (.noSuchTable versionName)
  | .withoutVersion => .error (.noSuchColumn "version")
  | .proper versions | .withoutTime versions => .ok (versions.keys.getLast?.getD 0)

/-- What is tried when the table of versions is made. -/
def versionTask : String := "create " ++ versionName ++ " table"

def pending (c : Schema) : Except Error (List Migration) :=
  match c.currentVersion with
  | .error f => .error ((QueryFault.sql f).error "query schema version")
  | .ok current => .ok (migrations.filter fun m => current < m.version)

def update (c : Schema) : Except Error Unit × Schema :=
  match c.ensureVersions with
  | .error f => (.error (migrationError versionTask f), c)
  | .ok c => match c.pending with
    | .error e => (.error e, c)
    | .ok pending => migrate pending c

/-- Whether a file is up to date in which every change meets a fault. -/
def checkUpdated (f : SqlFault) (c : Schema) : Except Error Unit :=
  match c.versions with
  | .missing => .error (migrationError versionTask f)
  | _ => match c.pending with
    | .error e => .error e
    | .ok pending => match pending.flatMap Migration.steps with
      | [] => .ok ()
      | s :: _ => .error (migrationError s.label f)

def versions? (c : Schema) : Option (List Int64) :=
  match c.versions with
  | .proper versions | .withoutTime versions => some versions.keys
  | .missing | .withoutVersion => none

/-- Strikes versions from one on out of the record. -/
def forgetVersions (start : Int64) (c : Schema) : Schema :=
  match c.versions with
  | .proper versions => { c with versions := .proper (versions.filter fun v _ => v < start) }
  | .withoutTime versions =>
    { c with versions := .withoutTime (versions.filter fun v _ => v < start) }
  | _ => c

def setVersion (version : Int64) (c : Schema) : Schema :=
  match c.recordVersion version with
  | .ok c => c
  | .error _ => c

/-- The contents without a table; its indexes stay. -/
def withoutTable (name : String) (c : Schema) : Schema :=
  if name == statsName then { c with stats := none }
  else if name == EventTable.name then { c with events := none }
  else if name == BenchmarkTable.name then { c with benchmarks := none }
  else if name == versionName then { c with versions := .missing }
  else c

def dropTable (name : String) (c : Schema) : Schema :=
  { c.withoutTable name with indexes := c.indexes.filter fun i => i.table != name }

/-- Puts an index of the statistics in the place of the table of versions. -/
def versionsByIndex (c : Schema) : Schema :=
  let c := { c with versions := .missing }
  if c.stats.isNone || c.indexNames.contains versionName then c
  else { c with indexes := c.indexes ++ [⟨versionName, statsName⟩] }

end Schema

end ProviderScout
