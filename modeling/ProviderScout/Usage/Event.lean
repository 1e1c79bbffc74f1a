import ProviderScout.Benchmark.Cache
import ProviderScout.Uuid

namespace ProviderScout

/-- One operation of a provider. -/
structure UsageEvent where
  id : Uuid
  createdAt : Instant
  host : String
  /-- The name of the provider's role. -/
  kind : String
  /-- What was done, such as the fetch of a body. -/
  operation : Option String
  /-- The bytes that were transferred. -/
  bytes : Option Int64
deriving DecidableEq

/-- How often an operation was done by a provider. -/
structure UsageCount where
  host : String
  kind : String
  operation : String
  count : Column
deriving DecidableEq

namespace UsageEvent

def maxHostLength : Nat := 255

def maxNameLength : Nat := 50

def cut (limit : Nat) (s : String) : String := String.ofList (s.toList.take limit)

/-- The event of an operation, with its texts cut to the lengths that are kept. -/
def ofOperation (id : Uuid) (now : Instant) (host kind : String) (operation : Option String)
    (bytes : Option Int64) : UsageEvent where
  id := id
  createdAt := now
  host := cut maxHostLength host
  kind := cut maxNameLength kind
  operation := operation.map (cut maxNameLength)
  bytes := bytes

def fieldNames : List String :=
  ["id", "created_at", "provider_host", "provider_type", "operation_type", "bytes_transferred"]

def toJson (e : UsageEvent) : Json :=
  .object [
    ("id", .string e.id.text),
    ("created_at", e.createdAt.toJson),
    ("provider_host", .string e.host),
    ("provider_type", .string e.kind),
    ("operation_type", .ofOption .string e.operation),
    ("bytes_transferred", .ofOption (fun n => .int n.toInt) e.bytes)]

def ofJson? (v : Json) : Option UsageEvent := do
  let r ← Record.ofJson? fieldNames v
  return {
    id := ← (r.slot "id").required fun v => v.string?.bind Uuid.parse?
    createdAt := ← (r.slot "created_at").required Instant.ofJson?
    host := ← (r.slot "provider_host").required Json.string?
    kind := ← (r.slot "provider_type").required Json.string?
    operation := ← (r.slot "operation_type").optional Json.string?
    bytes := ← (r.slot "bytes_transferred").optional Json.column? }

end UsageEvent

end ProviderScout
