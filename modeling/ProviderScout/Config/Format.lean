import ProviderScout.Config.Basic

namespace ProviderScout

namespace ProviderConfig

def fieldNames : List String :=
  ["host", "port", "tls", "username", "password", "connections", "priority", "type"]

def toJson (p : ProviderConfig) : Json :=
  .object [
    ("host", .string p.host),
    ("port", .ofNat p.port.toNat),
    ("tls", .bool p.tls),
    ("username", .ofOption .string p.username),
    ("password", .ofOption .string p.password),
    ("connections", .ofNat p.connections.toNat),
    ("priority", .int p.priority.toInt),
    ("type", p.role.toJson)]

def ofJson? (v : Json) : Option ProviderConfig := do
  let r ← Record.ofJson? fieldNames v
  return {
    host := ← (r.slot "host").required Json.string?
    port := ← (r.slot "port").required Json.uint16?
    tls := ← (r.slot "tls").withDefault false Json.bool?
    username := ← (r.slot "username").withDefault none (Slot.nullable Json.string?)
    password := ← (r.slot "password").withDefault none (Slot.nullable Json.string?)
    connections := ← (r.slot "connections").withDefault 10 Json.uint64?
    priority := ← (r.slot "priority").withDefault 0 Json.int32?
    role := ← (r.slot "type").withDefault .pooled Role.ofJson? }

end ProviderConfig

namespace AffinityConfig

def fieldNames : List String :=
  ["enabled", "exploration_rate", "min_samples", "ewma_alpha", "persist_interval",
    "benchmark_refresh_interval", "benchmark_initial_delay"]

def toJson (c : AffinityConfig) : Json :=
  .object [
    ("enabled", .bool c.enabled),
    ("exploration_rate", .ofFloat c.explorationRate),
    ("min_samples", .ofNat c.minSamples.toNat),
    ("ewma_alpha", .ofFloat c.ewmaAlpha),
    ("persist_interval", c.persistInterval.toJson),
    ("benchmark_refresh_interval", c.benchmarkRefreshInterval.toJson),
    ("benchmark_initial_delay", c.benchmarkInitialDelay.toJson)]

def ofJson? (v : Json) : Option AffinityConfig := do
  let r ← Record.ofJson? fieldNames v
  let d := standard
  return {
    enabled := ← (r.slot "enabled").withDefault d.enabled Json.bool?
    explorationRate := ← (r.slot "exploration_rate").withDefault d.explorationRate Json.float?
    minSamples := ← (r.slot "min_samples").withDefault d.minSamples Json.uint64?
    ewmaAlpha := ← (r.slot "ewma_alpha").withDefault d.ewmaAlpha Json.float?
    persistInterval := ← (r.slot "persist_interval").withDefault d.persistInterval Duration.ofJson?
    benchmarkRefreshInterval :=
      ← (r.slot "benchmark_refresh_interval").withDefault d.benchmarkRefreshInterval
        Duration.ofJson?
    benchmarkInitialDelay :=
      ← (r.slot "benchmark_initial_delay").withDefault d.benchmarkInitialDelay Duration.ofJson? }

end AffinityConfig

namespace UsageConfig

def fieldNames : List String := ["enabled", "batch_size", "batch_window"]

def toJson (c : UsageConfig) : Json :=
  .object [
    ("enabled", .bool c.enabled),
    ("batch_size", .ofNat c.batchSize.toNat),
    ("batch_window", c.batchWindow.toJson)]

def ofJson? (v : Json) : Option UsageConfig := do
  let r ← Record.ofJson? fieldNames v
  return {
    enabled := ← (r.slot "enabled").withDefault standard.enabled Json.bool?
    batchSize := ← (r.slot "batch_size").withDefault standard.batchSize Json.uint64?
    batchWindow := ← (r.slot "batch_window").withDefault standard.batchWindow Duration.ofJson? }

end UsageConfig

namespace StatsConfig

def fieldNames : List String := ["windows_hours", "refresh_interval"]

def toJson (c : StatsConfig) : Json :=
  .object [
    ("windows_hours", .array (c.windowsHours.map fun h => .int h.toInt)),
    ("refresh_interval", c.refreshInterval.toJson)]

def ofJson? (v : Json) : Option StatsConfig := do
  let r ← Record.ofJson? fieldNames v
  return {
    windowsHours :=
      ← (r.slot "windows_hours").withDefault standard.windowsHours (Json.list? Json.column?)
    refreshInterval :=
      ← (r.slot "refresh_interval").withDefault standard.refreshInterval Duration.ofJson? }

end StatsConfig

namespace PersistenceConfig

def fieldNames : List String := ["database_path", "startup_retry"]

def toJson (c : PersistenceConfig) : Json :=
  .object [
    ("database_path", .string c.databasePath),
    ("startup_retry", c.startupRetry.toJson)]

def ofJson? (v : Json) : Option PersistenceConfig := do
  let r ← Record.ofJson? fieldNames v
  return {
    databasePath := ← (r.slot "database_path").withDefault standard.databasePath Json.string?
    startupRetry := ← (r.slot "startup_retry").withDefault .standard RetryPolicy.ofJson? }

end PersistenceConfig

namespace SocketAddress

def toJson (s : SocketAddress) : Json := .string s.text

def ofJson? (v : Json) : Option SocketAddress := v.string?.bind parse?

end SocketAddress

namespace ApiConfig

def fieldNames : List String := ["bind_address", "cors_enabled", "cors_origins", "swagger_ui"]

def toJson (c : ApiConfig) : Json :=
  .object [
    ("bind_address", c.bindAddress.toJson),
    ("cors_enabled", .bool c.corsEnabled),
    ("cors_origins", .ofStrings c.corsOrigins),
    ("swagger_ui", .bool c.swaggerUi)]

def ofJson? (v : Json) : Option ApiConfig := do
  let r ← Record.ofJson? fieldNames v
  return {
    bindAddress := ← (r.slot "bind_address").withDefault standard.bindAddress SocketAddress.ofJson?
    corsEnabled := ← (r.slot "cors_enabled").withDefault standard.corsEnabled Json.bool?
    corsOrigins :=
      ← (r.slot "cors_origins").withDefault standard.corsOrigins (Json.list? Json.string?)
    swaggerUi := ← (r.slot "swagger_ui").withDefault standard.swaggerUi Json.bool? }

end ApiConfig

namespace Config

/-- The fields that are read where they stand. All others are taken over whole before `api` is
looked up among them. -/
def ownNames : List String := ["providers", "affinity", "usage", "stats", "persistence"]

/-- How deep a field that is taken over whole may nest: one level less than a whole text. -/
def fieldDepth : Nat := 126

def toJson (c : Config) : Json :=
  .object [
    ("providers", .array (c.providers.map ProviderConfig.toJson)),
    ("affinity", c.affinity.toJson),
    ("usage", c.usage.toJson),
    ("stats", c.stats.toJson),
    ("persistence", c.persistence.toJson),
    ("api", c.api.toJson)]

/-- Whether every field that is taken over whole can be. -/
def othersAreWhole (fields : List (String × Json)) : Bool :=
  fields.all fun f => ownNames.contains f.1 || f.2.isWhole fieldDepth

/-- Reads settings. Unlike their parts they have to be an object. -/
def ofJson? : Json → Option Config
  | .object fields => do
    let r ← Record.ofFields? (ownNames ++ ["api"]) fields
    guard (othersAreWhole fields)
    return {
      providers := ← (r.slot "providers").withDefault [] (Json.list? ProviderConfig.ofJson?)
      affinity := ← (r.slot "affinity").withDefault .standard AffinityConfig.ofJson?
      usage := ← (r.slot "usage").withDefault .standard UsageConfig.ofJson?
      stats := ← (r.slot "stats").withDefault .standard StatsConfig.ofJson?
      persistence := ← (r.slot "persistence").withDefault .standard PersistenceConfig.ofJson?
      api := ← (r.slot "api").withDefault .standard ApiConfig.ofJson? }
  | _ => none

end Config

end ProviderScout
