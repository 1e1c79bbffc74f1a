import ProviderScout.Config.Basic
import ProviderScout.Performance.Model
import ProviderScout.Performance.Report
import ProviderScout.Selection

namespace ProviderScout

/-- A job and a provider. -/
structure ModelKey where
  job : String
  provider : Nat
deriving DecidableEq

namespace ModelKey

/-- Keys are ordered by job and then by provider. -/
instance : Ord ModelKey := ⟨compareLex (compareOn ModelKey.job) (compareOn ModelKey.provider)⟩

instance : Std.TransOrd ModelKey :=
  inferInstanceAs (Std.TransCmp (compareLex (compareOn ModelKey.job) (compareOn ModelKey.provider)))

instance : Std.LawfulEqOrd ModelKey where
  eq_of_compare {a b} h := by
    have h : compareLex (compareOn ModelKey.job) (compareOn ModelKey.provider) a b = .eq := h
    obtain ⟨hjob, hprovider⟩ := compareLex_eq_eq.1 h
    cases a
    cases b
    exact mk.injEq .. ▸ ⟨Std.LawfulEqOrd.eq_of_compare hjob, Std.LawfulEqOrd.eq_of_compare hprovider⟩

end ModelKey

/-- The models of all jobs with the benchmarks that selection goes by. -/
structure Engine where
  config : AffinityConfig
  roles : List Role
  models : SortedMap ModelKey (Model Float)
  benchmarks : BenchmarkCache Float
  /-- Whether the stored past has been added. -/
  loaded : Bool

namespace Engine

def start (config : AffinityConfig) (roles : List Role) : Engine :=
  ⟨config, roles, ∅, .empty, false⟩

def isActive (e : Engine) (job : String) : Bool := e.config.enabled && !job.isEmpty

/-- Changes the model of a provider for a job; one is made if there is none. -/
def update (key : ModelKey) (f : Model Float → Model Float) (e : Engine) : Engine :=
  { e with models := e.models.alter key fun m? => some (f (m?.getD .fresh)) }

def recordSuccess (key : ModelKey) (bytes millis : Nat) (e : Engine) : Engine :=
  if e.isActive key.job then e.update key (Model.recordSuccess e.config.ewmaAlpha bytes millis)
  else e

def recordFailure (key : ModelKey) (e : Engine) : Engine :=
  if e.isActive key.job then e.update key Model.recordFailure else e

def performances (e : Engine) (job : String) : List (Nat × Performance Float) :=
  (e.models.entries.filter fun m => m.1.job == job).map fun m => (m.1.provider, m.2.performance)

def policy (e : Engine) (total : Nat) : Policy where
  roles := e.roles
  total := total
  minSamples := e.config.minSamples.toNat
  explorationRate := e.config.explorationRate

/-- The provider to ask next for a job, if there is a preference. There is no answer where one would
come from a ranking and there is none. -/
def preferred (e : Engine) (job : String) (total : Nat) (kind : UsageKind) (draw : Draw) :
    Option (Option Nat) :=
  let models := e.performances job
  if e.isActive job && !models.isEmpty then (e.policy total).select models e.benchmarks kind draw
  else some none

def choices (e : Engine) (job : String) (total : Nat) (kind : UsageKind) :
    List (Option (Option Nat)) :=
  let models := e.performances job
  if e.isActive job && !models.isEmpty then (e.policy total).choices models e.benchmarks kind
  else [some none]

/-- The providers that are known well enough for a job, best first, if they can be ranked. -/
def ranking (e : Engine) (job : String) (total : Nat) : Option (List (Scored Float)) :=
  let models := e.performances job
  if models.isEmpty then some [] else (e.policy total).ranking models e.benchmarks

/-- The providers that fail a job too often, by index. -/
def lowSuccess (e : Engine) (job : String) (minSamples : Nat) (threshold : Float) : List Nat :=
  let low := (e.performances job).filter fun m =>
    minSamples ≤ m.2.tally.samples && m.2.successRate < threshold
  low.map (·.1)

def jobReports (e : Engine) (job : String) : List PerformanceReport :=
  (e.performances job).map fun m => .ofPerformance m.1 m.2

def jobNames (e : Engine) : List String := (e.models.keys.map (·.job)).eraseDups

def clearJob (job : String) (e : Engine) : Engine :=
  { e with models := e.models.filter fun k _ => k.job != job }

def clearAll (e : Engine) : Engine := { e with models := ∅ }

end Engine

end ProviderScout
