import ProviderScout.Proofs.Log
import ProviderScout.SortedMap.Lookup
import ProviderScout.Statistics.Aggregator
import ProviderScout.Store.Memory

namespace ProviderScout

/-- A window as it was computed once, with or without success. -/
structure Computation where
  hours : Int64
  answer : Except Error StatsBucket

namespace Computation

def Yields (c : Computation) (hours : Int64) : Prop := ∃ b, c = ⟨hours, .ok b⟩

def succeeds (c : Computation) : Bool := c.answer.toBool

/-- Keeps a bucket in place of the former one of its window. -/
def keep (cache : SortedMap Int64 StatsBucket) (c : Computation) : SortedMap Int64 StatsBucket :=
  match c.answer with
  | .ok b => cache.insert c.hours b
  | .error _ => cache

/-- The bucket of the last computation of a window that succeeded. -/
def LastGood (hours : Int64) (b : StatsBucket) (log : List Computation) : Prop :=
  ∃ before after, log = before ++ ⟨hours, .ok b⟩ :: after ∧ ∀ c ∈ after, ¬ c.Yields hours

theorem lastGood_snoc_iff {hours : Int64} {b : StatsBucket} {log : List Computation}
    {c : Computation} :
    LastGood hours b (log ++ [c]) ↔
      c = ⟨hours, .ok b⟩ ∨ ¬ c.Yields hours ∧ LastGood hours b log :=
  lastOf_snoc_iff

theorem LastGood.yields {hours : Int64} {b : StatsBucket} {log : List Computation}
    (h : LastGood hours b log) : ∃ c ∈ log, c.Yields hours := by
  obtain ⟨before, after, rfl, _⟩ := h
  exact ⟨_, List.mem_append_right _ List.mem_cons_self, b, rfl⟩

theorem exists_lastGood {hours : Int64} {log : List Computation} (h : ∃ c ∈ log, c.Yields hours) :
    ∃ b, LastGood hours b log := by
  induction log using List.reverseRecOn with
  | nil =>
    obtain ⟨c, hc, _⟩ := h
    cases hc
  | append_singleton log last ih =>
    by_cases hlast : last.Yields hours
    · obtain ⟨b, hb⟩ := hlast
      exact ⟨b, lastGood_snoc_iff.2 (.inl hb)⟩
    · obtain ⟨c, hc, hyields⟩ := h
      rcases List.mem_append.1 hc with hc | hc
      · obtain ⟨b, hb⟩ := ih ⟨c, hc, hyields⟩
        exact ⟨b, lastGood_snoc_iff.2 (.inr ⟨hlast, hb⟩)⟩
      · cases List.mem_singleton.1 hc
        exact absurd hyields hlast

theorem get?_keep_of_not_yields {hours : Int64} {c : Computation} (h : ¬ c.Yields hours)
    (cache : SortedMap Int64 StatsBucket) : (keep cache c).get? hours = cache.get? hours := by
  obtain ⟨window, answer⟩ := c
  cases answer with
  | error err => rfl
  | ok b =>
    have hne : hours ≠ window := by
      rintro rfl
      exact h ⟨b, rfl⟩
    exact (SortedMap.get?_insert ..).trans (if_neg hne)

theorem get?_foldl_keep_of_not_yields {hours : Int64} {log : List Computation}
    (h : ∀ c ∈ log, ¬ c.Yields hours) (cache : SortedMap Int64 StatsBucket) :
    (log.foldl keep cache).get? hours = cache.get? hours := by
  induction log generalizing cache with
  | nil => rfl
  | cons c rest ih =>
    rw [List.forall_mem_cons] at h
    rw [List.foldl_cons, ih h.2, get?_keep_of_not_yields h.1]

/-- What is kept of computations one after the other is the last good bucket of each window. -/
theorem get?_foldl_keep_iff (log : List Computation) (hours : Int64) (b : StatsBucket) :
    (log.foldl keep ∅).get? hours = some b ↔ LastGood hours b log := by
  induction log using List.reverseRecOn with
  | nil =>
    constructor
    · intro h
      cases h
    · intro h
      obtain ⟨c, hc, _⟩ := h.yields
      cases hc
  | append_singleton log c ih =>
    rw [List.foldl_append, List.foldl_cons, List.foldl_nil, lastGood_snoc_iff]
    by_cases hyields : c.Yields hours
    · obtain ⟨b', rfl⟩ := hyields
      have hget : (keep (log.foldl keep ∅) ⟨hours, .ok b'⟩).get? hours = some b' :=
        (SortedMap.get?_insert ..).trans (if_pos rfl)
      rw [hget]
      constructor
      · rintro ⟨⟩
        exact .inl rfl
      · rintro (⟨⟨⟩⟩ | ⟨hnot, _⟩)
        · rfl
        · exact absurd ⟨b', rfl⟩ hnot
    · rw [get?_keep_of_not_yields hyields, ih]
      constructor
      · exact fun h => .inr ⟨hyields, h⟩
      · rintro (rfl | ⟨_, h⟩)
        · exact absurd ⟨b, rfl⟩ hyields
        · exact h

end Computation

namespace Aggregator

variable {σ : Type} [EventStore σ]

/-- The computations of a refresh, and the storage after them. None is made from the first window on
whose start cannot be represented. -/
def computations (now : Instant) : List Int64 → σ → List Computation × σ
  | [], s => ([], s)
  | hours :: rest, s => match cutoff? hours now with
    | none => ([], s)
    | some since =>
      let (answer, s) := compute hours since now s
      let (log, s) := computations now rest s
      (⟨hours, answer⟩ :: log, s)

theorem hours_computations {now : Instant} {windows : List Int64}
    (h : ∀ hours ∈ windows, (cutoff? hours now).isSome = true) (s : σ) :
    (computations now windows s).1.map Computation.hours = windows := by
  induction windows generalizing s with
  | nil => rfl
  | cons hours rest ih =>
    rw [List.forall_mem_cons] at h
    obtain ⟨since, hsince⟩ := Option.isSome_iff_exists.1 h.1
    simp only [computations, hsince, List.map_cons, ih h.2]

theorem refreshWindows_eq {now : Instant} {windows : List Int64}
    (h : ∀ hours ∈ windows, (cutoff? hours now).isSome = true)
    (cache : SortedMap Int64 StatsBucket) (done : Nat) (s : σ) :
    let log := computations now windows s
    refreshWindows now windows cache done s =
      (some (done + log.1.countP Computation.succeeds, log.1.foldl Computation.keep cache),
        log.2) := by
  induction windows generalizing cache done s with
  | nil => rfl
  | cons hours rest ih =>
    rw [List.forall_mem_cons] at h
    obtain ⟨since, hsince⟩ := Option.isSome_iff_exists.1 h.1
    simp only [refreshWindows, computations, hsince, List.countP_cons, List.foldl_cons]
    generalize compute hours since now s = result
    obtain ⟨answer, s⟩ := result
    cases answer with
    | ok b =>
      have hdone (n : Nat) : done + 1 + n = done + (n + 1) := by omega
      dsimp only
      rw [ih h.2, hdone]
      rfl
    | error err => exact ih h.2 cache done s

end Aggregator

/-- An aggregator over its storage, with what was computed so far, call by call, and what the calls
answered. -/
structure Serving (σ : Type) extends Aggregator where
  store : σ
  past : List (List Computation)
  answers : List (Option Nat)

/-- What can happen: the storage changes, or all windows are computed anew. -/
inductive Serving.Action (σ : Type) where
  | change (store : σ)
  | refresh (now : Instant)

namespace Serving

variable {σ : Type}

def start (windows : List Int64) (store : σ) : Serving σ := ⟨.ofWindows windows, store, [], []⟩

/-- Whether the starts of all windows can be represented. -/
def Action.Admits (windows : List Int64) : Action σ → Prop
  | .change _ => True
  | .refresh now => ∀ hours ∈ windows, (Aggregator.cutoff? hours now).isSome = true

instance (windows : List Int64) : (a : Action σ) → Decidable (a.Admits windows)
  | .change _ => inferInstanceAs (Decidable True)
  | .refresh now => List.decidableBAll (fun hours => (Aggregator.cutoff? hours now).isSome) windows

/-- The cache is what the computations so far gave, and every call computed every window and told how
many computations succeeded. -/
structure Sound (windows : List Int64) (s : Serving σ) : Prop where
  configured : s.windows = windows
  cache : s.cache = s.past.flatten.foldl Computation.keep ∅
  calls : ∀ call ∈ s.past, call.map Computation.hours = windows
  answers : s.answers = s.past.map fun call => some (call.countP Computation.succeeds)

theorem Sound.start (windows : List Int64) (store : σ) : Sound windows (start windows store) :=
  ⟨rfl, rfl, nofun, rfl⟩

theorem Sound.cached?_iff {windows : List Int64} {s : Serving σ} (h : Sound windows s)
    (hours : Int64) (b : StatsBucket) :
    s.cached? hours = some b ↔ Computation.LastGood hours b s.past.flatten := by
  rw [← Computation.get?_foldl_keep_iff, ← h.cache]
  rfl

theorem Sound.mem_windows {windows : List Int64} {s : Serving σ} (h : Sound windows s)
    {c : Computation} (hc : c ∈ s.past.flatten) : c.hours ∈ windows := by
  obtain ⟨call, hcall, hmem⟩ := List.mem_flatten.1 hc
  rw [← h.calls call hcall]
  exact List.mem_map_of_mem hmem

theorem Sound.isSome_cached?_iff {windows : List Int64} {s : Serving σ} (h : Sound windows s)
    (hours : Int64) :
    (s.cached? hours).isSome = true ↔
      hours ∈ windows ∧ ∃ c ∈ s.past.flatten, c.Yields hours := by
  rw [Option.isSome_iff_exists]
  simp only [h.cached?_iff]
  constructor
  · rintro ⟨b, hb⟩
    obtain ⟨c, hc, hyields⟩ := hb.yields
    have hmem := h.mem_windows hc
    obtain ⟨b', rfl⟩ := hyields
    exact ⟨hmem, _, hc, b', rfl⟩
  · exact fun hgood => Computation.exists_lastGood hgood.2

variable [EventStore σ]

def computing (s : Serving σ) : Action σ → List Computation
  | .change _ => []
  | .refresh now => (Aggregator.computations now s.windows s.store).1

def step (s : Serving σ) (a : Action σ) : Serving σ :=
  match a with
  | .change store => { s with store := store }
  | .refresh now =>
    let r := s.refresh now s.store
    { toAggregator := (r.1.map (·.2)).getD s.toAggregator
      store := r.2
      past := s.past ++ [s.computing a]
      answers := s.answers ++ [r.1.map (·.1)] }

def run (s : Serving σ) (actions : List (Action σ)) : Serving σ := actions.foldl step s

theorem step_refresh {s : Serving σ} {now : Instant}
    (h : (Action.refresh now : Action σ).Admits s.windows) :
    s.step (.refresh now) =
      let log := Aggregator.computations now s.windows s.store
      { windows := s.windows
        cache := log.1.foldl Computation.keep s.cache
        store := log.2
        past := s.past ++ [log.1]
        answers := s.answers ++ [some (log.1.countP Computation.succeeds)] } := by
  rw [step, Aggregator.refresh, Aggregator.refreshWindows_eq h, Nat.zero_add]
  rfl

/-- Only a computation of its own that succeeds changes what is served of a window. -/
theorem cached?_step {s : Serving σ} {a : Action σ} (ha : a.Admits s.windows) {hours : Int64}
    (h : ∀ c ∈ s.computing a, ¬ c.Yields hours) :
    (s.step a).cached? hours = s.cached? hours := by
  cases a with
  | change store => rfl
  | refresh now =>
    rw [step_refresh ha]
    exact Computation.get?_foldl_keep_of_not_yields h s.cache

theorem Sound.step {windows : List Int64} {s : Serving σ} (h : Sound windows s) {a : Action σ}
    (ha : a.Admits windows) : Sound windows (s.step a) := by
  obtain ⟨hwindows, hcache, hcalls, hanswers⟩ := h
  cases a with
  | change store => exact ⟨hwindows, hcache, hcalls, hanswers⟩
  | refresh now =>
    rw [step_refresh (hwindows ▸ ha)]
    refine ⟨hwindows, ?_, ?_, ?_⟩
    · rw [List.flatten_append, List.foldl_append, ← hcache, List.flatten_singleton]
    · rw [List.forall_mem_append, List.forall_mem_singleton]
      refine ⟨hcalls, ?_⟩
      rw [hwindows]
      exact Aggregator.hours_computations ha s.store
    · rw [List.map_append, hanswers]
      rfl

theorem Sound.run {windows : List Int64} {s : Serving σ} (h : Sound windows s)
    {actions : List (Action σ)} (hactions : ∀ a ∈ actions, a.Admits windows) :
    Sound windows (s.run actions) := by
  induction actions generalizing s with
  | nil => exact h
  | cons a rest ih =>
    rw [List.forall_mem_cons] at hactions
    exact ih (h.step hactions.1) hactions.2

/-- However often the windows are refreshed, whatever is stored and whichever computations fail:
after each call the bucket of a window is the last one that was computed of it, there is one exactly
if the window is among those that are computed and one of its computations succeeded, and nothing
else changes what is served of it. Every call computes every window and answers how many
computations succeeded. -/
theorem run_serves_lastGood {windows : List Int64} (store : σ) {actions : List (Action σ)}
    (hactions : ∀ a ∈ actions, a.Admits windows) (hours : Int64) :
    let s := (start windows store).run actions
    (∀ b, s.cached? hours = some b ↔ Computation.LastGood hours b s.past.flatten) ∧
      ((s.cached? hours).isSome = true ↔
        hours ∈ windows ∧ ∃ c ∈ s.past.flatten, c.Yields hours) ∧
      (∀ call ∈ s.past, call.map Computation.hours = windows) ∧
      s.answers = s.past.map (fun call => some (call.countP Computation.succeeds)) ∧
      ∀ a : Action σ, a.Admits windows → (∀ c ∈ s.computing a, ¬ c.Yields hours) →
        (s.step a).cached? hours = s.cached? hours := by
  intro s
  have hsound : Sound windows s := (Sound.start windows store).run hactions
  refine ⟨hsound.cached?_iff hours, hsound.isSome_cached?_iff hours, hsound.calls, hsound.answers,
    ?_⟩
  intro a ha hnone
  exact cached?_step (hsound.configured.symm ▸ ha) hnone

/-- A window that fails does not touch the others, is served as it was before, and is not served if it
never succeeded. -/
theorem run_serves_lastGood_of_failing_windows :
    let windows : List Int64 := [1, 1, 0, -2]
    let counts : List UsageCount := [⟨"news.example.org", "primary", "BODY", 3⟩]
    let actions : List (Action FixedCounts) :=
      [.refresh ⟨1700000000, 0⟩, .change ⟨[], false, [true, true, true, false]⟩,
        .refresh ⟨1700000060, 0⟩]
    let s := (start windows ⟨counts, true, [false, false, true, false]⟩).run actions
    (∀ a ∈ actions, a.Admits windows) ∧
      s.answers = [some 3, some 1] ∧
      (∃ b, s.cached? 1 = some b ∧ b.total = 3 ∧ b.calculatedAt = ⟨1700000000, 0⟩ ∧
        Computation.LastGood 1 b s.past.flatten) ∧
      s.cached? 0 = none ∧
      (∃ b, s.cached? (-2) = some b ∧ b.total = 0 ∧ b.calculatedAt = ⟨1700000060, 0⟩) := by
  intro windows counts actions s
  have hadmits : ∀ a ∈ actions, a.Admits windows := by decide +kernel
  obtain ⟨hgood, _⟩ := run_serves_lastGood ⟨counts, true, [false, false, true, false]⟩ hadmits 1
  have hone : (s.cached? 1).map (fun b => (b.total, b.calculatedAt)) =
      some (3, ⟨1700000000, 0⟩) := by decide +kernel
  have hfuture : (s.cached? (-2)).map (fun b => (b.total, b.calculatedAt)) =
      some (0, ⟨1700000060, 0⟩) := by decide +kernel
  have hnone : (s.cached? 0).isNone = true := by decide +kernel
  obtain ⟨b, hb, hshown⟩ := Option.map_eq_some_iff.1 hone
  obtain ⟨f, hf, hlater⟩ := Option.map_eq_some_iff.1 hfuture
  rw [Prod.mk.injEq] at hshown hlater
  refine ⟨hadmits, by decide +kernel, ?_, Option.isNone_iff_eq_none.1 hnone, ?_⟩
  · exact ⟨b, hb, hshown.1, hshown.2, (hgood b).1 hb⟩
  · exact ⟨f, hf, hlater⟩

end Serving

end ProviderScout
