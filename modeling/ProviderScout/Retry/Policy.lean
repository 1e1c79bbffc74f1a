import ProviderScout.Json.Record
import ProviderScout.Time.Duration

namespace ProviderScout

/-- A length of time in JSON: its whole seconds. -/
def Duration.toJson (d : Duration) : Json := .ofNat d.seconds

def Duration.ofJson? (v : Json) : Option Duration := v.uint64?.map Duration.ofSeconds

/-- A policy for trying again. -/
structure RetryPolicy where
  /-- How often an operation is tried again after its first failure. -/
  maxAttempts : UInt32
  initialDelay : Duration
  maxDelay : Duration
  /-- What the delay is multiplied by from one attempt to the next. -/
  multiplier : Float
  /-- Whether delays are lengthened by a random part of themselves. -/
  jitter : Bool

namespace RetryPolicy

def standard : RetryPolicy where
  maxAttempts := 5
  initialDelay := .ofSeconds 1
  maxDelay := .ofSeconds 60
  multiplier := 2.0
  jitter := true

instance : Inhabited RetryPolicy := ⟨standard⟩

def fieldNames : List String :=
  ["max_attempts", "initial_delay", "max_delay", "backoff_multiplier", "jitter"]

def toJson (p : RetryPolicy) : Json :=
  .object [
    ("max_attempts", .ofNat p.maxAttempts.toNat),
    ("initial_delay", p.initialDelay.toJson),
    ("max_delay", p.maxDelay.toJson),
    ("backoff_multiplier", .ofFloat p.multiplier),
    ("jitter", .bool p.jitter)]

def ofJson? (v : Json) : Option RetryPolicy := do
  let r ← Record.ofJson? fieldNames v
  return {
    maxAttempts := ← (r.slot "max_attempts").withDefault standard.maxAttempts Json.uint32?
    initialDelay := ← (r.slot "initial_delay").withDefault standard.initialDelay Duration.ofJson?
    maxDelay := ← (r.slot "max_delay").withDefault standard.maxDelay Duration.ofJson?
    multiplier := ← (r.slot "backoff_multiplier").withDefault standard.multiplier Json.float?
    jitter := ← (r.slot "jitter").withDefault standard.jitter Json.bool? }

end RetryPolicy

end ProviderScout
