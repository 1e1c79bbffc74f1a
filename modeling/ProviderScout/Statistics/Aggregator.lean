import ProviderScout.Statistics.Bucket
import ProviderScout.Store.Seam

namespace ProviderScout

/-- The windows and the last good bucket of each. -/
structure Aggregator where
  windows : List Int64
  cache : SortedMap Int64 StatsBucket

namespace Aggregator

variable {σ : Type} [EventStore σ]

def ofWindows (windows : List Int64) : Aggregator := ⟨windows, ∅⟩

/-- The last good bucket of a window. -/
def cached? (a : Aggregator) (hours : Int64) : Option StatsBucket := a.cache.get? hours

/-- The time from which on a window counts, if it can be represented. -/
def cutoff? (hours : Int64) (now : Instant) : Option Instant := now.hoursBefore? hours.toInt

def compute (hours : Int64) (since now : Instant) (s : σ) : Except Error StatsBucket × σ :=
  let (counts, s) := EventStore.countsSince since s
  (counts.map fun counts => StatsBucket.ofCounts counts hours now, s)

/-- Computes windows one after the other into a cache. A window that fails leaves the cache as it
is. Answers the number of windows that were computed and the new cache, or nothing if the start of
a window cannot be represented. -/
def refreshWindows (now : Instant) :
    List Int64 → SortedMap Int64 StatsBucket → Nat → σ →
    Option (Nat × SortedMap Int64 StatsBucket) × σ
  | [], cache, done, s => (some (done, cache), s)
  | hours :: rest, cache, done, s => match cutoff? hours now with
    | none => (none, s)
    | some since => match compute hours since now s with
      | (.ok bucket, s) => refreshWindows now rest (cache.insert hours bucket) (done + 1) s
      | (.error _, s) => refreshWindows now rest cache done s

/-- Computes all windows anew. Without an answer the cache stays as it was. -/
def refresh (now : Instant) (a : Aggregator) (s : σ) : Option (Nat × Aggregator) × σ :=
  let (result, s) := refreshWindows now a.windows a.cache 0 s
  (result.map fun (done, cache) => (done, { a with cache := cache }), s)

end Aggregator

end ProviderScout
