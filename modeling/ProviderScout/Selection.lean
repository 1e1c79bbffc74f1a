import ProviderScout.Benchmark.Cache
import ProviderScout.Performance.Tally
import ProviderScout.Provider.Role
import ProviderScout.Usage.Kind

namespace ProviderScout

/-- What selection goes by. -/
structure Policy where
  /-- The role of each provider by index. -/
  roles : List Role
  /-- How many providers the caller can use. -/
  total : Nat
  /-- The samples from which on a provider is known well enough. -/
  minSamples : Nat
  /-- The chance that a little known provider is tried out. -/
  explorationRate : Float

/-- A provider with its score, from 0 to 100 for ordinary speeds. -/
structure Scored (α : Type) where
  provider : Nat
  score : α

/-- The random part of a selection. -/
structure Draw where
  /-- Whether to try out a provider, where chance decides. -/
  explore : Bool
  /-- Which of the providers to try out. -/
  pick : Nat

namespace Scored

def fieldNames : List String := ["provider_index", "score"]

def toJson (s : Scored Float) : Json :=
  .object [("provider_index", .ofNat s.provider), ("score", .ofFloat s.score)]

def ofJson? (v : Json) : Option (Scored Float) := do
  let r ← Record.ofJson? fieldNames v
  return {
    provider := ← (r.slot "provider_index").required Json.counter?
    score := ← (r.slot "score").required Json.float? }

end Scored

namespace Policy

variable {α : Type} [Quantity α]

def isSelectable (p : Policy) (provider : Nat) : Bool :=
  provider < p.total && (p.roles[provider]?).any Role.isSelectable

/-- The number of samples of a provider, 0 if it was never used. -/
def samplesOf (models : List (Nat × Performance α)) (provider : Nat) : Nat :=
  match models.find? fun m => m.1 == provider with
  | some m => m.2.tally.samples
  | none => 0

/-- The providers to try out, by index. -/
def unexplored (p : Policy) (models : List (Nat × Performance α)) : List Nat :=
  (List.range (Nat.min p.total p.roles.length)).filter fun i =>
    p.isSelectable i && samplesOf models i < p.minSamples

def isEligible (p : Policy) (m : Nat × Performance α) : Bool :=
  p.isSelectable m.1 && p.minSamples ≤ m.2.tally.successes

def eligible (p : Policy) (models : List (Nat × Performance α)) : List (Nat × Performance α) :=
  (models.filter p.isEligible).mergeSort fun a b => a.1 ≤ b.1

/-- The speed that counts as full speed: the largest, or 1 if no provider has any. -/
def fullSpeed (models : List (Nat × Performance α)) : α :=
  let most := Quantity.largest (models.map (·.2.speed))
  if (0.0 : α) < most then most else (1.0 : α)

/-- The score of a provider. Its own benchmark counts if there is one; where only others have one it
gets nothing in its place. -/
def score (benchmarks : BenchmarkCache α) (full : α) (m : Nat × Performance α) : α :=
  let rate := m.2.successRate
  let speed := (100.0 : α) * m.2.speed / full
  match benchmarks.normalized? m.1 with
  | some benchmark => (0.40 : α) * rate + (0.35 : α) * benchmark + (0.25 : α) * speed
  | none =>
    if benchmarks.isEmpty then (0.45 : α) * rate + (0.55 : α) * speed
    else (0.45 : α) * rate + (0.35 : α) * speed

/-- Whether scores can be put in order: each is a number, or no two of them differ. A double that is
no number is not even at most itself. -/
def isComparable (scored : List (Scored α)) : Bool :=
  scored.all (fun a => a.score ≤ a.score) ||
    scored.all fun a => scored.all fun b => !decide (a.score < b.score)

/-- The most entries that are sorted by insertion, which comes to an end whatever the scores are. -/
def maxInserted : Nat := 20

/-- Puts a provider behind those of a ranking, given in reverse, that do not score less. -/
def insertReversed (x : Scored α) : List (Scored α) → List (Scored α)
  | [] => [x]
  | y :: rest => if y.score < x.score then y :: insertReversed x rest else x :: y :: rest

/-- Sorts by score, highest first; providers with equal scores stay in order. -/
def insertAll (scored : List (Scored α)) : List (Scored α) :=
  (scored.foldl (fun ranked x => insertReversed x ranked) []).reverse

/-- Ranks by score. A longer list is sorted by merging, which may break off where scores cannot be put
in order; no answer is given then. -/
def byScore (scored : List (Scored α)) : Option (List (Scored α)) :=
  if scored.length ≤ maxInserted || isComparable scored then some (insertAll scored) else none

/-- The providers that are known well enough with their scores, by index. -/
def scored (p : Policy) (models : List (Nat × Performance α)) (benchmarks : BenchmarkCache α) :
    List (Scored α) :=
  let known := p.eligible models
  known.map fun m => ⟨m.1, score benchmarks (fullSpeed known) m⟩

/-- The providers that are known well enough, best first, if they can be ranked. -/
def ranking (p : Policy) (models : List (Nat × Performance α)) (benchmarks : BenchmarkCache α) :
    Option (List (Scored α)) := byScore (p.scored models benchmarks)

/-- The provider to use of a ranking: the first, or the second for work that leaves the first to
others. -/
def choose (ranked : List (Scored α)) (kind : UsageKind) : Option Nat :=
  let pick := if kind.isBackground && 2 ≤ ranked.length then ranked[1]? else ranked.head?
  pick.map (·.provider)

def best (p : Policy) (models : List (Nat × Performance α)) (benchmarks : BenchmarkCache α)
    (kind : UsageKind) : Option (Option Nat) :=
  (p.ranking models benchmarks).map fun ranked => choose ranked kind

/-- Whether a provider is to be tried out; for a rate between 0 and 1 chance decides. -/
def explores (p : Policy) (coin : Bool) : Bool :=
  (0 : Float) < p.explorationRate && ((1 : Float) ≤ p.explorationRate || coin)

/-- The provider to ask, if any. There is no answer where one would come from a ranking and there is
none. -/
def select (p : Policy) (models : List (Nat × Performance α)) (benchmarks : BenchmarkCache α)
    (kind : UsageKind) (draw : Draw) : Option (Option Nat) :=
  let candidates := p.unexplored models
  if p.explores draw.explore && !candidates.isEmpty then
    some candidates[draw.pick % candidates.length]?
  else p.best models benchmarks kind

/-- All outcomes of a selection, without repetition. -/
def choices (p : Policy) (models : List (Nat × Performance α)) (benchmarks : BenchmarkCache α)
    (kind : UsageKind) : List (Option (Option Nat)) :=
  let candidates := (p.unexplored models).map fun i => some (some i)
  let ranked := p.best models benchmarks kind
  if candidates.isEmpty || !p.explores true then [ranked]
  else if p.explores false || candidates.contains ranked then candidates
  else ranked :: candidates

end Policy

end ProviderScout
