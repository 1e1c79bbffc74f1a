import ProviderScout.Performance.Row
import ProviderScout.SortedMap.Lookup
import ProviderScout.Store.Fault
import ProviderScout.Usage.Event

namespace ProviderScout

/-- The job and provider of a stored row. -/
structure StatsKey where
  job : String
  provider : Column
deriving DecidableEq

namespace StatsKey

/-- Keys are ordered by job and then by provider. -/
instance : Ord StatsKey := ⟨compareLex (compareOn StatsKey.job) (compareOn StatsKey.provider)⟩

instance : Std.TransOrd StatsKey :=
  inferInstanceAs (Std.TransCmp (compareLex (compareOn StatsKey.job) (compareOn StatsKey.provider)))

instance : Std.LawfulEqOrd StatsKey where
  eq_of_compare {a b} h := by
    have h : compareLex (compareOn StatsKey.job) (compareOn StatsKey.provider) a b = .eq := h
    obtain ⟨hjob, hprovider⟩ := compareLex_eq_eq.1 h
    cases a
    cases b
    exact mk.injEq .. ▸ ⟨Std.LawfulEqOrd.eq_of_compare hjob, Std.LawfulEqOrd.eq_of_compare hprovider⟩

end StatsKey

def StatsRow.key (r : StatsRow) : StatsKey := ⟨r.job, r.provider⟩

/-- The stored performances, each under its own key. -/
structure StatsTable where
  rows : SortedMap StatsKey StatsRow
  keyed : ∀ k r, rows.get? k = some r → r.key = k

namespace StatsTable

def empty : StatsTable := ⟨∅, nofun⟩

instance : EmptyCollection StatsTable := ⟨empty⟩

instance : Inhabited StatsTable := ⟨empty⟩

def upsert (t : StatsTable) (r : StatsRow) : StatsTable where
  rows := t.rows.insert r.key r
  keyed k s h := by
    rw [SortedMap.get?_insert] at h
    split at h
    · cases h
      exact Eq.symm ‹_›
    · exact t.keyed k s h

def jobRows (t : StatsTable) (job : String) : List StatsRow :=
  t.rows.values.filter fun r => r.job == job

def delete (t : StatsTable) (job : Option String) : StatsTable where
  rows := t.rows.filter fun _ r => job.any (· != r.job)
  keyed k r h := by
    rw [SortedMap.get?_filter, Option.filter_eq_some_iff] at h
    exact t.keyed k r h.1

end StatsTable

/-- A stored event. Its time is a full second. -/
structure StoredEvent where
  id : Uuid
  second : Int
  host : String
  kind : String
  operation : Option String
  bytes : Option Int64
deriving DecidableEq

namespace StoredEvent

def ofEvent (e : UsageEvent) : StoredEvent where
  id := e.id
  second := e.createdAt.secs
  host := e.host
  kind := e.kind
  operation := e.operation
  bytes := e.bytes

end StoredEvent

/-- What events are counted by. -/
structure UsageKey where
  host : String
  kind : String
  operation : String
deriving DecidableEq

namespace UsageKey

/-- Keys are ordered by host, then by kind and then by operation. -/
instance : Ord UsageKey :=
  ⟨compareLex (compareOn UsageKey.host)
    (compareLex (compareOn UsageKey.kind) (compareOn UsageKey.operation))⟩

instance : Std.TransOrd UsageKey :=
  inferInstanceAs (Std.TransCmp
    (compareLex (compareOn UsageKey.host)
      (compareLex (compareOn UsageKey.kind) (compareOn UsageKey.operation))))

instance : Std.LawfulEqOrd UsageKey where
  eq_of_compare {a b} h := by
    have h : compareLex (compareOn UsageKey.host)
        (compareLex (compareOn UsageKey.kind) (compareOn UsageKey.operation)) a b = .eq := h
    obtain ⟨hhost, hrest⟩ := compareLex_eq_eq.1 h
    obtain ⟨hkind, hoperation⟩ := compareLex_eq_eq.1 hrest
    cases a
    cases b
    exact mk.injEq .. ▸ ⟨Std.LawfulEqOrd.eq_of_compare hhost, Std.LawfulEqOrd.eq_of_compare hkind,
      Std.LawfulEqOrd.eq_of_compare hoperation⟩

end UsageKey

def StoredEvent.key? (e : StoredEvent) : Option UsageKey :=
  e.operation.map fun operation => ⟨e.host, e.kind, operation⟩

/-- The stored events. -/
structure EventTable where
  rows : List StoredEvent
  /-- Hosts whose events a rule of the table forbids. -/
  refusedHosts : List String

namespace EventTable

def empty : EventTable := ⟨[], []⟩

def name : String := "provider_usage_events"

/-- The most rows a table can hold. Rows are numbered from 1, and the number of a row is a column. -/
def maxRows : Nat := 9223372036854775807

def insert (t : EventTable) (e : StoredEvent) : Except SqlFault EventTable :=
  if t.refusedHosts.contains e.host then .error (.refused "host refused")
  else if maxRows ≤ t.rows.length then .error .full
  else if t.rows.any fun old => old.id == e.id then .error (.notUnique (name ++ ".id"))
  else .ok { t with rows := t.rows ++ [e] }

def chunkSize : Nat := 166

def insertChunk (t : EventTable) (chunk : List StoredEvent) : Except SqlFault EventTable :=
  chunk.foldlM insert t

/-- Cuts events into chunks for one statement each. -/
def chunks (events : List StoredEvent) : List (List StoredEvent) :=
  match events with
  | [] => []
  | e :: rest => (e :: rest).take chunkSize :: chunks ((e :: rest).drop chunkSize)
termination_by events.length
decreasing_by
  simp only [List.length_cons, List.length_drop, chunkSize]
  omega

/-- Stores events in as many statements as they need, all or none. -/
def insertAll (t : EventTable) (events : List StoredEvent) : Except SqlFault EventTable :=
  (chunks events).foldlM insertChunk t

def countsSince (t : EventTable) (second : Int) : SortedMap UsageKey Nat :=
  let counted := t.rows.filterMap fun e => if second ≤ e.second then e.key? else none
  counted.foldl (fun m k => m.alter k fun n? => some (n?.getD 0 + 1)) ∅

end EventTable

/-- A benchmark as it is reported. -/
structure BenchmarkResult where
  provider : Column
  mbps : Float
  success : Bool
  /-- Whether several providers shared the load. -/
  loadBalanced : Bool
  errorMessage : Option String
  createdAt : Column
deriving DecidableEq

/-- A benchmark as it is stored. -/
structure StoredBenchmark where
  id : Nat
  result : BenchmarkResult
deriving DecidableEq

/-- The stored benchmarks, oldest first. -/
structure BenchmarkTable where
  rows : List StoredBenchmark

namespace BenchmarkTable

def empty : BenchmarkTable := ⟨[]⟩

def name : String := "provider_benchmark_results"

/-- Stores a benchmark and answers its number. A speed that is no number is refused. -/
def insert (t : BenchmarkTable) (r : BenchmarkResult) : Except SqlFault (Nat × BenchmarkTable) :=
  if r.mbps.isNaN then .error (.isNull (name ++ ".speed_mbps"))
  else
    let id := t.rows.length + 1
    .ok (id, ⟨t.rows ++ [⟨id, r⟩]⟩)

/-- Whether a benchmark tells of the speed of its provider alone. -/
def isUsable (b : StoredBenchmark) : Bool := b.result.success && !b.result.loadBalanced

/-- Whether a benchmark goes before another of the same provider: it is later, or as late and stored
later. -/
def supersedes (a b : StoredBenchmark) : Bool :=
  b.result.createdAt < a.result.createdAt
    || (a.result.createdAt == b.result.createdAt && b.id < a.id)

def latest (t : BenchmarkTable) : SortedMap Column StoredBenchmark :=
  (t.rows.filter isUsable).foldl (fun m b => m.alter b.result.provider fun
    | none => some b
    | some old => some (if supersedes b old then b else old)) ∅

end BenchmarkTable

end ProviderScout
