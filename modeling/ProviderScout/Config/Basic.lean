import ProviderScout.Provider.Role
import ProviderScout.Retry.Policy
import ProviderScout.SocketAddress

namespace ProviderScout

/-- A server that articles are fetched from. -/
structure ProviderConfig where
  host : String
  port : UInt16
  tls : Bool
  username : Option String
  password : Option String
  connections : UInt64
  priority : Int32
  role : Role

/-- How providers are selected and how what is learnt is kept. -/
structure AffinityConfig where
  enabled : Bool
  /-- The chance that a provider with few samples is tried out. -/
  explorationRate : Float
  /-- The samples that a provider needs before it is preferred. -/
  minSamples : UInt64
  /-- The weight of a new sample in the smoothed speed. -/
  ewmaAlpha : Float
  persistInterval : Duration
  benchmarkRefreshInterval : Duration
  benchmarkInitialDelay : Duration

namespace AffinityConfig

def standard : AffinityConfig where
  enabled := true
  explorationRate := 0.1
  minSamples := 10
  ewmaAlpha := 0.15
  persistInterval := .ofSeconds 5
  benchmarkRefreshInterval := .ofSeconds 60
  benchmarkInitialDelay := .ofSeconds 5

instance : Inhabited AffinityConfig := ⟨standard⟩

end AffinityConfig

/-- How usage events are collected. -/
structure UsageConfig where
  enabled : Bool
  /-- The most events that are written together. -/
  batchSize : UInt64
  /-- How long a batch that is not full waits. -/
  batchWindow : Duration
deriving DecidableEq

namespace UsageConfig

def standard : UsageConfig where
  enabled := true
  batchSize := 100
  batchWindow := .ofSeconds 5

instance : Inhabited UsageConfig := ⟨standard⟩

end UsageConfig

/-- Which statistics are kept. -/
structure StatsConfig where
  /-- The windows that are counted over, in hours. -/
  windowsHours : List Int64
  refreshInterval : Duration
deriving DecidableEq

namespace StatsConfig

def standard : StatsConfig where
  windowsHours := [24, 72, 168, 336, 720]
  refreshInterval := .ofSeconds 900

instance : Inhabited StatsConfig := ⟨standard⟩

end StatsConfig

/-- Where data are kept. -/
structure PersistenceConfig where
  databasePath : String
  /-- How the load at the start is tried again. -/
  startupRetry : RetryPolicy

namespace PersistenceConfig

def standard : PersistenceConfig where
  databasePath := "./usenet-affinity.db"
  startupRetry := .standard

instance : Inhabited PersistenceConfig := ⟨standard⟩

end PersistenceConfig

/-- How the service is reached over HTTP. -/
structure ApiConfig where
  bindAddress : SocketAddress
  corsEnabled : Bool
  corsOrigins : List String
  swaggerUi : Bool

namespace ApiConfig

def standard : ApiConfig where
  bindAddress := ⟨.v4 127 0 0 1, 6790⟩
  corsEnabled := true
  corsOrigins := ["*"]
  swaggerUi := true

instance : Inhabited ApiConfig := ⟨standard⟩

end ApiConfig

/-- All settings. The position of a provider in the list is its index. -/
structure Config where
  providers : List ProviderConfig
  affinity : AffinityConfig
  usage : UsageConfig
  stats : StatsConfig
  persistence : PersistenceConfig
  api : ApiConfig

namespace Config

def standard : Config := ⟨[], .standard, .standard, .standard, .standard, .standard⟩

instance : Inhabited Config := ⟨standard⟩

def roles (c : Config) : List Role := c.providers.map (·.role)

end Config

end ProviderScout
