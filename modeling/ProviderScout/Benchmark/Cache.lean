import ProviderScout.Json.Record
import ProviderScout.Number.Quantity
import ProviderScout.SortedMap.Basic
import ProviderScout.Time.Rfc3339

namespace ProviderScout

/-- A measured speed in megabits per second. -/
structure BenchmarkSpeed (α : Type) where
  provider : Nat
  mbps : α
  measuredAt : Instant
deriving DecidableEq

/-- The latest measured speed of each provider. -/
structure BenchmarkCache (α : Type) where
  speeds : SortedMap Nat (BenchmarkSpeed α)

namespace BenchmarkCache

variable {α : Type}

def empty : BenchmarkCache α := ⟨∅⟩

instance : Inhabited (BenchmarkCache α) := ⟨empty⟩

/-- Of several speeds of one provider the last one counts. -/
def ofList (l : List (BenchmarkSpeed α)) : BenchmarkCache α :=
  ⟨SortedMap.ofList (l.map fun s => (s.provider, s))⟩

def get? (c : BenchmarkCache α) (provider : Nat) : Option (BenchmarkSpeed α) :=
  c.speeds.get? provider

def size (c : BenchmarkCache α) : Nat := c.speeds.size

def isEmpty (c : BenchmarkCache α) : Bool := c.size == 0

def toList (c : BenchmarkCache α) : List (BenchmarkSpeed α) := c.speeds.values

variable [Quantity α]

def fastest (c : BenchmarkCache α) : α := Quantity.largest (c.toList.map (·.mbps))

/-- The speed of a provider in percent of the largest; 50 if no provider has any speed. -/
def normalized? (c : BenchmarkCache α) (provider : Nat) : Option α :=
  (c.get? provider).map fun s =>
    if c.fastest ≤ (0.0 : α) then (50.0 : α) else (100.0 : α) * s.mbps / c.fastest

end BenchmarkCache

def Instant.toJson (t : Instant) : Json := .string (Rfc3339.render t)

def Instant.ofJson? (v : Json) : Option Instant := v.string?.bind Rfc3339.parse?

namespace BenchmarkSpeed

def fieldNames : List String := ["provider_index", "speed_mbps", "measured_at"]

def toJson (s : BenchmarkSpeed Float) : Json :=
  .object [
    ("provider_index", .ofNat s.provider),
    ("speed_mbps", .ofFloat s.mbps),
    ("measured_at", s.measuredAt.toJson)]

def ofJson? (v : Json) : Option (BenchmarkSpeed Float) := do
  let r ← Record.ofJson? fieldNames v
  return {
    provider := ← (r.slot "provider_index").required Json.counter?
    mbps := ← (r.slot "speed_mbps").required Json.float?
    measuredAt := ← (r.slot "measured_at").required Instant.ofJson? }

end BenchmarkSpeed

end ProviderScout
