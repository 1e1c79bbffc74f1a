import ProviderScout.Json.Record

namespace ProviderScout

/-- A stored performance. The speed is a whole number, and `lastUsed` the second of the last
save. -/
structure StatsRow where
  job : String
  provider : Column
  successes : Column
  failures : Column
  bytes : Column
  millis : Column
  speed : Column
  lastUsed : Column
deriving DecidableEq

namespace StatsRow

def fieldNames : List String :=
  ["job_name", "provider_index", "successful_segments", "failed_segments", "total_bytes",
    "total_time_ms", "recent_average_speed_bps", "last_used"]

def toJson (r : StatsRow) : Json :=
  .object [
    ("job_name", .string r.job),
    ("provider_index", .int r.provider.toInt),
    ("successful_segments", .int r.successes.toInt),
    ("failed_segments", .int r.failures.toInt),
    ("total_bytes", .int r.bytes.toInt),
    ("total_time_ms", .int r.millis.toInt),
    ("recent_average_speed_bps", .int r.speed.toInt),
    ("last_used", .int r.lastUsed.toInt)]

def ofJson? (v : Json) : Option StatsRow := do
  let r ← Record.ofJson? fieldNames v
  return {
    job := ← (r.slot "job_name").required Json.string?
    provider := ← (r.slot "provider_index").required Json.column?
    successes := ← (r.slot "successful_segments").required Json.column?
    failures := ← (r.slot "failed_segments").required Json.column?
    bytes := ← (r.slot "total_bytes").required Json.column?
    millis := ← (r.slot "total_time_ms").required Json.column?
    speed := ← (r.slot "recent_average_speed_bps").required Json.column?
    lastUsed := ← (r.slot "last_used").required Json.column? }

end StatsRow

end ProviderScout
