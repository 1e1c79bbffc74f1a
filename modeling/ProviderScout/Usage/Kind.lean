import ProviderScout.Json.Record

namespace ProviderScout

/-- What a provider is wanted for. -/
inductive UsageKind where
  | unknown
  | queue
  | streaming
  | bufferedStreaming
  | healthCheck
  | repair
  | analysis
deriving DecidableEq

namespace UsageKind

instance : Inhabited UsageKind := ⟨.unknown⟩

def all : List UsageKind :=
  [.unknown, .queue, .streaming, .bufferedStreaming, .healthCheck, .repair, .analysis]

/-- Whether the work leaves the best provider to interactive use. -/
def isBackground : UsageKind → Bool
  | .queue | .healthCheck | .analysis => true
  | .unknown | .streaming | .bufferedStreaming | .repair => false

def name : UsageKind → String
  | .unknown => "unknown"
  | .queue => "queue"
  | .streaming => "streaming"
  | .bufferedStreaming => "buffered_streaming"
  | .healthCheck => "health_check"
  | .repair => "repair"
  | .analysis => "analysis"

def ofName? (s : String) : Option UsageKind := all.find? fun k => k.name == s

theorem ofName?_name (k : UsageKind) : ofName? k.name = some k := by
  cases k <;> decide +kernel

def ofJson? : Json → Option UsageKind := Json.choice? ofName?

def toJson (k : UsageKind) : Json := .string k.name

end UsageKind

end ProviderScout
