import ProviderScout.Engine.Basic
import ProviderScout.Store.Seam

/-!
Saving what is learnt and adding what was saved before. Nothing is saved until the stored past has
been added, so that what is new never takes the place of what is old.
-/

namespace ProviderScout.Engine

/-- Takes the rows of all models in which something happened since the last save, with their keys.
The models count as saved from here on. -/
def collect (now : Instant) (e : Engine) : List (ModelKey × StatsRow) × Engine :=
  let persisted := e.models.map fun k m => m.persist k.job k.provider now
  let rows := persisted.entries.filterMap fun p => p.2.1.map fun row => (p.1, row)
  (rows, { e with models := persisted.map fun _ p => p.2 })

def restore (keys : List ModelKey) (e : Engine) : Engine :=
  { e with models := keys.foldl (fun models k => models.modify k Model.markDirty) e.models }

/-- Adds a stored row. A row with a negative provider is passed over. -/
def absorb (e : Engine) (r : StatsRow) : Engine :=
  if r.provider < 0 then e
  else
    let key : ModelKey := ⟨r.job, r.provider.toInt.toNat⟩
    { e with models := e.models.alter key fun
      | none => some (.ofRow r)
      | some m => some (m.merge r) }

def forget (job : Option String) (e : Engine) : Engine :=
  match job with
  | some job => e.clearJob job
  | none => e.clearAll

variable {σ : Type} [ModelStore σ]

/-- Saves the models in which something happened, and answers how many there were. If that fails
they count as not saved. Nothing is saved before the stored past has been added. -/
def flush (now : Instant) (e : Engine) (s : σ) : Except Error Nat × Engine × σ :=
  if !e.loaded then (.ok 0, e, s)
  else
    let (rows, saved) := e.collect now
    if rows.isEmpty then (.ok 0, saved, s)
    else match ModelStore.upsertRows (rows.map (·.2)) s with
      | (.ok (), s) => (.ok rows.length, saved, s)
      | (.error err, s) => (.error err, saved.restore (rows.map (·.1)), s)

/-- Adds the stored past, once, and answers the number of stored rows. -/
def load (e : Engine) (s : σ) : Except Error Nat × Engine × σ :=
  if e.loaded then (.ok 0, e, s)
  else match ModelStore.loadRows s with
    | (.error err, s) => (.error err, e, s)
    | (.ok rows, s) => (.ok rows.length, { rows.foldl absorb e with loaded := true }, s)

def persist (now : Instant) (e : Engine) (s : σ) : Except Error Nat × Engine × σ :=
  match e.load s with
  | (.error err, e, s) => (.error err, e, s)
  | (.ok _, e, s) => e.flush now s

/-- Forgets a job, or all jobs, in storage and in memory. Answers the number of rows of the job, or
-1 for all jobs. -/
def reset (job : Option String) (e : Engine) (s : σ) : Except Error Int × Engine × σ :=
  match ModelStore.deleteRows job s with
  | (.error err, s) => (.error err, e, s)
  | (.ok deleted, s) =>
    let answer : Int := if job.isSome then (Column.ofCounter deleted).toInt else -1
    (.ok answer, e.forget job, s)

/-- Takes over the latest benchmarks and answers of how many providers there are any. -/
def refreshBenchmarks (now : Instant) (e : Engine) (s : σ) : Except Error Nat × Engine × σ :=
  match ModelStore.latestSpeeds now s with
  | (.error err, s) => (.error err, e, s)
  | (.ok speeds, s) =>
    let cache := BenchmarkCache.ofList speeds
    (.ok cache.size, { e with benchmarks := cache }, s)

end ProviderScout.Engine
