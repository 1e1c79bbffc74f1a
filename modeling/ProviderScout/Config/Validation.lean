import ProviderScout.Config.Basic
import ProviderScout.Error.Basic
import ProviderScout.Number.Shortest

namespace ProviderScout.Config

/-- A setting that is not acceptable. -/
inductive Fault where
  | zeroInterval (key : String)
  | zeroBatchSize
  | explorationRate (rate : Float)
  | ewmaAlpha (alpha : Float)

namespace Fault

def key : Fault → String
  | .zeroInterval key => key
  | .zeroBatchSize => "usage.batch_size"
  | .explorationRate _ => "affinity.exploration_rate"
  | .ewmaAlpha _ => "affinity.ewma_alpha"

def message : Fault → String
  | .zeroInterval _ => "interval must be greater than zero"
  | .zeroBatchSize => "batch size must be at least 1"
  | .explorationRate rate => s!"exploration rate {Shortest.text rate} must be between 0 and 1"
  | .ewmaAlpha alpha => s!"EWMA alpha {Shortest.text alpha} must be greater than 0 and at most 1"

def error (f : Fault) : Error := .config f.message (some f.key)

end Fault

/-- The intervals that must not be zero, with their keys. -/
def intervals (c : Config) : List (String × Duration) := [
  ("affinity.persist_interval", c.affinity.persistInterval),
  ("affinity.benchmark_refresh_interval", c.affinity.benchmarkRefreshInterval),
  ("stats.refresh_interval", c.stats.refreshInterval)]

/-- The first setting that is not acceptable. -/
def fault? (c : Config) : Option Fault :=
  match c.intervals.find? fun i => i.2.isZero with
  | some i => some (.zeroInterval i.1)
  | none =>
    let rate := c.affinity.explorationRate
    let alpha := c.affinity.ewmaAlpha
    if c.usage.batchSize == 0 then some .zeroBatchSize
    else if !((0 : Float) ≤ rate && rate ≤ 1) then some (.explorationRate rate)
    else if !((0 : Float) < alpha && alpha ≤ 1) then some (.ewmaAlpha alpha)
    else none

/-- Accepts settings, or names the first that is not acceptable. -/
def validate (c : Config) : Except Error Unit :=
  match c.fault? with
  | none => .ok ()
  | some f => .error f.error

end ProviderScout.Config
