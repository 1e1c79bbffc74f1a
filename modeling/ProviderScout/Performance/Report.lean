import ProviderScout.Json.Record
import ProviderScout.Number.Rounding
import ProviderScout.Performance.Tally

namespace ProviderScout

/-- A performance with the figures that follow from it. Speeds are in bytes per second and the rate
in percent. -/
structure PerformanceReport where
  provider : Nat
  successes : Nat
  failures : Nat
  bytes : Nat
  millis : Nat
  recentSpeed : Nat
  averageSpeed : Nat
  successRate : Float

namespace PerformanceReport

def ofPerformance (provider : Nat) (p : Performance Float) : PerformanceReport where
  provider := provider
  successes := p.tally.successes
  failures := p.tally.failures
  bytes := p.tally.bytes
  millis := p.tally.millis
  recentSpeed := Counter.ofFloat p.speed
  averageSpeed := p.tally.averageSpeed
  successRate := p.successRate

/-- The number of segments. The sum is not answered if 64 bits do not hold it. -/
def samples (r : PerformanceReport) : Option Nat := Counter.sum? r.successes r.failures

def fieldNames : List String :=
  ["provider_index", "successful_segments", "failed_segments", "total_bytes", "total_time_ms",
    "recent_average_speed_bps", "average_speed_bps", "success_rate"]

def toJson (r : PerformanceReport) : Json :=
  .object [
    ("provider_index", .ofNat r.provider),
    ("successful_segments", .ofNat r.successes),
    ("failed_segments", .ofNat r.failures),
    ("total_bytes", .ofNat r.bytes),
    ("total_time_ms", .ofNat r.millis),
    ("recent_average_speed_bps", .ofNat r.recentSpeed),
    ("average_speed_bps", .ofNat r.averageSpeed),
    ("success_rate", .ofFloat r.successRate)]

def ofJson? (v : Json) : Option PerformanceReport := do
  let r ← Record.ofJson? fieldNames v
  return {
    provider := ← (r.slot "provider_index").required Json.counter?
    successes := ← (r.slot "successful_segments").required Json.counter?
    failures := ← (r.slot "failed_segments").required Json.counter?
    bytes := ← (r.slot "total_bytes").required Json.counter?
    millis := ← (r.slot "total_time_ms").required Json.counter?
    recentSpeed := ← (r.slot "recent_average_speed_bps").required Json.counter?
    averageSpeed := ← (r.slot "average_speed_bps").required Json.counter?
    successRate := ← (r.slot "success_rate").required Json.float? }

end PerformanceReport

end ProviderScout
