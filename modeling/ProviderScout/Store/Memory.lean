import ProviderScout.Store.Seam

namespace ProviderScout

def storeOffline : Error := .database .connectionFailed "store offline"

/-- Rows in the order in which they were stored, and benchmarks. -/
structure MemoryStore where
  rows : List StatsRow
  speeds : List (BenchmarkSpeed Float)
  offline : Bool

namespace MemoryStore

def sameKey (a b : StatsRow) : Bool := a.job == b.job && a.provider == b.provider

def put (rows : List StatsRow) (r : StatsRow) : List StatsRow :=
  rows.filter (fun old => !sameKey old r) ++ [r]

def guarded {α : Type} (s : MemoryStore) (a : α) : Except Error α :=
  if s.offline then .error storeOffline else .ok a

instance : ModelStore MemoryStore where
  loadRows s := (s.guarded s.rows, s)
  upsertRows rows s :=
    (s.guarded (), if s.offline then s else { s with rows := rows.foldl put s.rows })
  deleteRows job s :=
    let kept := s.rows.filter fun r => job.any (· != r.job)
    (s.guarded (s.rows.length - kept.length), if s.offline then s else { s with rows := kept })
  latestSpeeds _ s := (s.guarded s.speeds, s)

end MemoryStore

/-- Storage that answers every question for counts with the same ones. -/
structure FixedCounts where
  counts : List UsageCount
  offline : Bool
  /-- Whether each of the next calls fails; later calls fail while the storage is offline. -/
  upcoming : List Bool

namespace FixedCounts

instance : EventStore FixedCounts where
  insertEvents _ s := (.ok (), s)
  countsSince _ s :=
    let (fails, rest) := match s.upcoming with
      | [] => (s.offline, [])
      | f :: rest => (f, rest)
    (if fails then .error storeOffline else .ok s.counts, { s with upcoming := rest })

end FixedCounts

end ProviderScout
