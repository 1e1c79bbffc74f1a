import ProviderScout.Proofs.Engine.Models
import ProviderScout.Proofs.Store.Contract

/-!
An engine at work on a storage, seen through one key. What an operation does to the model and the
row of a key depends on these alone, on whether the operation succeeded, and, where a save failed,
on whether the row of the key was stored all the same.
-/

namespace ProviderScout

/-- An engine and its storage. -/
structure Session (σ : Type) where
  engine : Engine
  store : σ

/-- What can be done with an engine. -/
inductive Operation where
  | success (key : ModelKey) (bytes millis : Nat)
  | failure (key : ModelKey)
  | load
  | flush (now : Instant)
  | persist (now : Instant)
  | reset (job : Option String)
  | clearJob (job : String)
  | clearAll
  | refresh (now : Instant)
deriving DecidableEq

/-- An operation that was done, whether it succeeded and whether the stored past had been added
after it. -/
structure Event where
  op : Operation
  ok : Bool
  loaded : Bool
deriving DecidableEq

/-- Whether a column holds the provider of what is recorded. -/
def Operation.Fits : Operation → Prop
  | .success key _ _ | .failure key => key.Fits
  | _ => True

instance (op : Operation) : Decidable op.Fits :=
  match op with
  | .success key _ _ | .failure key => inferInstanceAs (Decidable key.Fits)
  | .load | .flush _ | .persist _ | .reset _ | .clearJob _ | .clearAll | .refresh _ =>
    .isTrue trivial

/-- What an engine and its storage hold for one key. -/
structure Cell where
  loaded : Bool
  model : Option (Model Float)
  row : Option StatsRow

namespace Cell

def update (f : Model Float → Model Float) (c : Cell) : Cell :=
  { c with model := some (f (c.model.getD .fresh)) }

def load (c : Cell) : Cell :=
  if c.loaded then c
  else ⟨true, c.row.elim c.model fun r => some (Model.absorb r c.model), c.row⟩

/-- The row after a save. One that failed may have stored it: `stray` tells. -/
def savedRow (key : ModelKey) (now : Instant) (ok stray : Bool) (c : Cell) : Option StatsRow :=
  match c.model with
  | none => c.row
  | some m =>
    if m.dirty && (ok || stray) then some (m.row key.job key.provider now) else c.row

def save (key : ModelKey) (now : Instant) (ok stray : Bool) (c : Cell) : Cell :=
  ⟨c.loaded, c.model.map (Model.saved now ok), c.savedRow key now ok stray⟩

/-- What an operation does to what is held for a key. -/
def next (config : AffinityConfig) (key : ModelKey) (ev : Event) (stray : Bool) (c : Cell) : Cell :=
  let active := config.enabled && !key.job.isEmpty
  match ev.op with
  | .success k bytes millis =>
    if k = key ∧ active then c.update (Model.recordSuccess config.ewmaAlpha bytes millis) else c
  | .failure k => if k = key ∧ active then c.update Model.recordFailure else c
  | .load => if ev.loaded then c.load else c
  | .flush now => if ev.loaded then c.save key now ev.ok stray else c
  | .persist now => if ev.loaded then c.load.save key now ev.ok stray else c
  | .reset job => if ev.ok && job.all (· == key.job) then ⟨c.loaded, none, none⟩ else c
  | .clearJob job => if key.job = job then { c with model := none } else c
  | .clearAll => { c with model := none }
  | .refresh _ => c

end Cell

/-- The row of a model's key. A provider that no column holds has none. -/
def StatsTable.rowOf? (t : StatsTable) (k : ModelKey) : Option StatsRow :=
  if k.Fits then t.get? k.stored else none

namespace Session

variable {σ : Type} [ModelStore σ]

def ofCall {α : Type} (r : Except Error α × Engine × σ) : Bool × Session σ :=
  (r.1.isOk, ⟨r.2.1, r.2.2⟩)

def apply (op : Operation) (s : Session σ) : Bool × Session σ :=
  match op with
  | .success key bytes millis => (true, { s with engine := s.engine.recordSuccess key bytes millis })
  | .failure key => (true, { s with engine := s.engine.recordFailure key })
  | .load => ofCall (s.engine.load s.store)
  | .flush now => ofCall (s.engine.flush now s.store)
  | .persist now => ofCall (s.engine.persist now s.store)
  | .reset job => ofCall (s.engine.reset job s.store)
  | .clearJob job => (true, { s with engine := s.engine.clearJob job })
  | .clearAll => (true, { s with engine := s.engine.clearAll })
  | .refresh now => ofCall (s.engine.refreshBenchmarks now s.store)

def step (op : Operation) (s : Session σ) : Event × Session σ :=
  let r := s.apply op
  (⟨op, r.1, r.2.engine.loaded⟩, r.2)

def run (s : Session σ) (ops : List Operation) : List Event × Session σ :=
  ops.foldl (fun r op => let n := r.2.step op; (r.1 ++ [n.1], n.2)) ([], s)

variable [LawfulModelStore σ]

def table (s : Session σ) : StatsTable := LawfulModelStore.table s.store

def cell (s : Session σ) (k : ModelKey) : Cell :=
  ⟨s.engine.loaded, s.engine.model? k, s.table.rowOf? k⟩

end Session

end ProviderScout
