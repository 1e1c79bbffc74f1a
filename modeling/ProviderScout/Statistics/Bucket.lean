import ProviderScout.Number.Rounding
import ProviderScout.Usage.Event

namespace ProviderScout

/-- A provider as events name it. -/
structure Source where
  host : String
  kind : String
deriving DecidableEq

namespace Source

/-- Sources are ordered by host and then by kind. -/
instance : Ord Source := ⟨compareLex (compareOn Source.host) (compareOn Source.kind)⟩

instance : Std.TransOrd Source :=
  inferInstanceAs (Std.TransCmp (compareLex (compareOn Source.host) (compareOn Source.kind)))

instance : Std.LawfulEqOrd Source where
  eq_of_compare {a b} h := by
    have h : compareLex (compareOn Source.host) (compareOn Source.kind) a b = .eq := h
    obtain ⟨hhost, hkind⟩ := compareLex_eq_eq.1 h
    cases a
    cases b
    exact mk.injEq .. ▸ ⟨Std.LawfulEqOrd.eq_of_compare hhost, Std.LawfulEqOrd.eq_of_compare hkind⟩

end Source

/-- The usage of one provider. -/
structure UsageSummary where
  host : String
  kind : String
  total : Nat
  counts : SortedMap String Nat
  /-- The share of all operations in percent, rounded to one decimal. -/
  percentage : Float

/-- The usage of all providers within a window. -/
structure StatsBucket where
  providers : List UsageSummary
  total : Nat
  calculatedAt : Instant
  windowHours : Int64

abbrev UsageTable := SortedMap Source (SortedMap String Nat)

namespace UsageTable

/-- Adds a count; a negative one counts as 0. -/
def add (t : UsageTable) (c : UsageCount) : UsageTable :=
  t.alter ⟨c.host, c.kind⟩ fun counts? => some <|
    (counts?.getD ∅).alter c.operation fun n? =>
      some (Counter.wrap (n?.getD 0 + Counter.ofColumn c.count))

def ofCounts (counts : List UsageCount) : UsageTable := counts.foldl add ∅

end UsageTable

namespace StatsBucket

/-- The sum of counters, as far as 64 bits hold it. -/
def sum (ns : List Nat) : Nat := ns.foldl (fun a b => Counter.wrap (a + b)) 0

/-- A percentage of a total, rounded to one decimal. -/
def percentage (part total : Nat) : Float :=
  Float.round (Float.ofNat part * 100.0 / Float.ofNat total * 10.0) / 10.0

def summary (total : Nat) (source : Source) (counts : SortedMap String Nat) : UsageSummary where
  host := source.host
  kind := source.kind
  total := sum counts.values
  counts := counts
  percentage := percentage (sum counts.values) total

def empty (windowHours : Int64) (now : Instant) : StatsBucket := ⟨[], 0, now, windowHours⟩

/-- The usage that counts tell of. Equally busy providers stand in order. -/
def ofCounts (counts : List UsageCount) (windowHours : Int64) (now : Instant) : StatsBucket :=
  let table := UsageTable.ofCounts counts
  let total := sum (table.values.flatMap SortedMap.values)
  if total = 0 then empty windowHours now
  else
    let summaries := table.entries.map fun e => summary total e.1 e.2
    ⟨summaries.mergeSort fun a b => b.total ≤ a.total, total, now, windowHours⟩

end StatsBucket

namespace UsageSummary

def fieldNames : List String :=
  ["provider_host", "provider_type", "total_operations", "operation_counts", "percentage_of_total"]

def toJson (s : UsageSummary) : Json :=
  .object [
    ("provider_host", .string s.host),
    ("provider_type", .string s.kind),
    ("total_operations", .ofNat s.total),
    ("operation_counts", .object (s.counts.entries.map fun e => (e.1, .ofNat e.2))),
    ("percentage_of_total", .ofFloat s.percentage)]

/-- Reads counts by operation; of several counts of one operation the last one counts. -/
def counts? : Json → Option (SortedMap String Nat)
  | .object fields => do
    let counts ← fields.mapM fun (operation, v) => v.counter?.map fun n => (operation, n)
    return SortedMap.ofList counts
  | _ => none

def ofJson? (v : Json) : Option UsageSummary := do
  let r ← Record.ofJson? fieldNames v
  return {
    host := ← (r.slot "provider_host").required Json.string?
    kind := ← (r.slot "provider_type").required Json.string?
    total := ← (r.slot "total_operations").required Json.counter?
    counts := ← (r.slot "operation_counts").required counts?
    percentage := ← (r.slot "percentage_of_total").required Json.float? }

end UsageSummary

namespace StatsBucket

def fieldNames : List String := ["providers", "total_operations", "calculated_at", "window_hours"]

def toJson (b : StatsBucket) : Json :=
  .object [
    ("providers", .array (b.providers.map UsageSummary.toJson)),
    ("total_operations", .ofNat b.total),
    ("calculated_at", b.calculatedAt.toJson),
    ("window_hours", .int b.windowHours.toInt)]

def ofJson? (v : Json) : Option StatsBucket := do
  let r ← Record.ofJson? fieldNames v
  return {
    providers := ← (r.slot "providers").required (Json.list? UsageSummary.ofJson?)
    total := ← (r.slot "total_operations").required Json.counter?
    calculatedAt := ← (r.slot "calculated_at").required Instant.ofJson?
    windowHours := ← (r.slot "window_hours").required Json.column? }

end StatsBucket

end ProviderScout
