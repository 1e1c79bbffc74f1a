import Mathlib
import ProviderScout.SortedMap.Lookup
import ProviderScout.Statistics.Aggregator
import ProviderScout.Store.Memory

namespace ProviderScout

theorem Instant.le_iff_toLex (a b : Instant) :
    a.le b = true ↔ toLex (a.secs, a.nanos) ≤ toLex (b.secs, b.nanos) := by
  rw [le, Prod.Lex.toLex_le_toLex, Bool.or_eq_true, Bool.and_eq_true, decide_eq_true_iff,
    decide_eq_true_iff, beq_iff_eq]

/-- The time of an instant among the times of buckets. A bucket that is missing comes before all. -/
def Instant.time (t : Instant) : WithBot (ℤ ×ₗ ℕ) := (toLex (t.secs, t.nanos) : ℤ ×ₗ ℕ)

theorem Instant.time_le_iff {a b : Instant} : a.time ≤ b.time ↔ a.le b = true :=
  WithBot.coe_le_coe.trans (a.le_iff_toLex b).symm

abbrev BucketCache := SortedMap Int64 StatsBucket

def bucketTime (cache : BucketCache) (hours : Int64) : WithBot (ℤ ×ₗ ℕ) :=
  (cache.get? hours).elim ⊥ fun b => b.calculatedAt.time

theorem bucketTime_of_get? {cache : BucketCache} {hours : Int64} {b : StatsBucket}
    (h : cache.get? hours = some b) : bucketTime cache hours = b.calculatedAt.time := by
  rw [bucketTime, h]
  rfl

theorem time_le_bucketTime_iff (cache : BucketCache) (hours : Int64) (u : Instant) :
    u.time ≤ bucketTime cache hours ↔
      ∃ b, cache.get? hours = some b ∧ u.le b.calculatedAt = true := by
  cases h : cache.get? hours with
  | none =>
    rw [bucketTime, h]
    constructor
    · intro hle
      exact absurd (le_bot_iff.1 hle) WithBot.coe_ne_bot
    · rintro ⟨b, hb, _⟩
      cases hb
  | some b =>
    rw [bucketTime_of_get? h, Instant.time_le_iff]
    constructor
    · exact fun hle => ⟨b, rfl, hle⟩
    · rintro ⟨b', hb', hle⟩
      cases hb'
      exact hle

theorem Aggregator.calculatedAt_of_compute {σ : Type} [EventStore σ] {hours : Int64}
    {since now : Instant} {s : σ} {b : StatsBucket} (h : (compute hours since now s).1 = .ok b) :
    b.calculatedAt = now := by
  rw [compute] at h
  cases hcounts : (EventStore.countsSince since s).1 with
  | error err =>
    simp only [hcounts] at h
    cases h
  | ok counts =>
    simp only [hcounts] at h
    cases h
    simp only [StatsBucket.ofCounts]
    split <;> rfl

/-- A refresh of all windows that goes on. -/
structure Computing where
  now : Instant
  /-- The copy of the cache with the buckets computed so far. -/
  cache : BucketCache
  computed : List Int64
  /-- The windows that are left. -/
  rest : List Int64
  /-- The cache that was copied. -/
  found : BucketCache
  /-- The refreshes that were completed in the meantime, by when they began and what they
  computed. -/
  passed : List (Instant × List Int64)

namespace Computing

variable {σ : Type} [EventStore σ]

def start (now : Instant) (windows : List Int64) (cache : BucketCache) : Computing :=
  ⟨now, cache, [], windows, cache, []⟩

/-- Computes the next window. Nothing is left of a refresh if the start of the window cannot be
represented. -/
def next (c : Computing) (s : σ) : Option Computing × σ :=
  match c.rest with
  | [] => (some c, s)
  | hours :: rest => match Aggregator.cutoff? hours c.now with
    | none => (none, s)
    | some since => match Aggregator.compute hours since c.now s with
      | (.ok bucket, s) =>
        (some { c with
          cache := c.cache.insert hours bucket, computed := hours :: c.computed, rest := rest }, s)
      | (.error _, s) => (some { c with rest := rest }, s)

def pass (done c : Computing) : Computing :=
  { c with passed := c.passed ++ [(done.now, done.computed)] }

/-- A refresh that was completed in the meantime computed a window of which this one has no bucket,
or an earlier one. -/
def Overtaken (c : Computing) : Prop :=
  ∃ p ∈ c.passed, ∃ hours ∈ p.2,
    ∀ b, c.cache.get? hours = some b → ¬ p.1.le b.calculatedAt = true

end Computing

/-- An aggregator that is refreshed by several callers at a time. -/
structure Aggregating (σ : Type) extends Aggregator where
  store : σ
  clock : Instant
  calls : SortedMap Nat Computing
  tickets : Nat

/-- What can happen. -/
inductive Aggregating.Action (σ : Type) where
  | wait (now : Instant)
  /-- The stored events change. -/
  | change (store : σ)
  | begin
  | compute (ticket : Nat)
  | finish (ticket : Nat)
  | abandon (ticket : Nat)

namespace Aggregating

variable {σ : Type}

def start (windows : List Int64) (store : σ) (clock : Instant) : Aggregating σ :=
  ⟨.ofWindows windows, store, clock, ∅, 0⟩

def drop (s : Aggregating σ) (ticket : Nat) : SortedMap Nat Computing :=
  s.calls.alter ticket fun _ => none

/-- No bucket is lost and none gets older. -/
def Kept (s t : Aggregating σ) : Prop :=
  ∀ hours b, s.cached? hours = some b →
    ∃ b', t.cached? hours = some b' ∧ b.calculatedAt.le b'.calculatedAt = true

/-- A refresh is completed that was overtaken. -/
def Completes (s : Aggregating σ) (a : Action σ) : Prop :=
  ∃ ticket c, a = .finish ticket ∧ s.calls.get? ticket = some c ∧ c.rest = [] ∧ c.Overtaken

theorem kept_iff (s t : Aggregating σ) :
    s.Kept t ↔ ∀ hours, bucketTime s.cache hours ≤ bucketTime t.cache hours := by
  constructor
  · intro h hours
    cases hb : s.cache.get? hours with
    | none =>
      rw [bucketTime, hb]
      exact bot_le
    | some b =>
      rw [bucketTime_of_get? hb]
      exact (time_le_bucketTime_iff _ hours _).2 (h hours b hb)
  · intro h hours b hb
    apply (time_le_bucketTime_iff _ hours _).1
    rw [← bucketTime_of_get? hb]
    exact h hours

variable [EventStore σ]

def step (s : Aggregating σ) (a : Action σ) : Aggregating σ :=
  match a with
  | .wait now => if s.clock.le now then { s with clock := now } else s
  | .change store => { s with store := store }
  | .begin => { s with
      calls := s.calls.insert s.tickets (.start s.clock s.windows s.cache)
      tickets := s.tickets + 1 }
  | .compute ticket => match s.calls.get? ticket with
    | none => s
    | some c => { s with
        store := (c.next s.store).2, calls := s.calls.alter ticket fun _ => (c.next s.store).1 }
  | .finish ticket => match s.calls.get? ticket with
    | none => s
    | some c =>
      if c.rest.isEmpty then
        { s with cache := c.cache, calls := (s.drop ticket).map fun _ => c.pass }
      else s
  | .abandon ticket => { s with calls := s.drop ticket }

def run (s : Aggregating σ) (actions : List (Action σ)) : Aggregating σ := actions.foldl step s

/-- No bucket is lost and none gets older at any step. -/
def Keeps (s : Aggregating σ) : List (Action σ) → Prop
  | [] => True
  | a :: rest => s.Kept (s.step a) ∧ (s.step a).Keeps rest

/-- No refresh is completed that was overtaken. -/
def Spares (s : Aggregating σ) : List (Action σ) → Prop
  | [] => True
  | a :: rest => ¬ s.Completes a ∧ (s.step a).Spares rest

/-- The outcomes of a step. -/
inductive Taken (s : Aggregating σ) : Action σ → Aggregating σ → Prop
  | stay {a : Action σ} (ha : ¬ s.Completes a) : Taken s a s
  | wait {now : Instant} (h : s.clock.le now = true) : Taken s (.wait now) { s with clock := now }
  | change (store : σ) : Taken s (.change store) { s with store := store }
  | begin : Taken s .begin { s with
      calls := s.calls.insert s.tickets (.start s.clock s.windows s.cache)
      tickets := s.tickets + 1 }
  | compute {ticket : Nat} {c : Computing} (hc : s.calls.get? ticket = some c) :
      Taken s (.compute ticket) { s with
        store := (c.next s.store).2, calls := s.calls.alter ticket fun _ => (c.next s.store).1 }
  | finish {ticket : Nat} {c : Computing} (hc : s.calls.get? ticket = some c) (hrest : c.rest = []) :
      Taken s (.finish ticket)
        { s with cache := c.cache, calls := (s.drop ticket).map fun _ => c.pass }
  | abandon (ticket : Nat) : Taken s (.abandon ticket) { s with calls := s.drop ticket }

theorem step_taken (s : Aggregating σ) (a : Action σ) : Taken s a (s.step a) := by
  cases a with
  | wait now =>
    rw [step]
    split
    · exact .wait ‹_›
    · exact .stay nofun
  | change store => exact .change store
  | begin => exact .begin
  | compute ticket =>
    rw [step]
    split
    · exact .stay nofun
    · exact .compute ‹_›
  | finish ticket =>
    rw [step]
    split
    · rename_i hnone
      apply Taken.stay
      rintro ⟨_, c, hticket, hc, _⟩
      cases hticket
      cases hnone.symm.trans hc
    · rename_i c hc
      split
      · rename_i hrest
        exact .finish hc (List.isEmpty_iff.1 hrest)
      · rename_i hrest
        apply Taken.stay
        rintro ⟨_, c', hticket, hc', hnil, _⟩
        cases hticket
        cases hc.symm.trans hc'
        exact hrest (List.isEmpty_iff.2 hnil)
  | abandon ticket => exact .abandon ticket

end Aggregating

theorem Computing.refreshWindows_next (c : Computing) {σ : Type} [EventStore σ] (s : σ) :
    Aggregator.refreshWindows c.now c.rest c.cache c.computed.length s =
      match c.next s with
      | (none, s) => (none, s)
      | (some c, s) => Aggregator.refreshWindows c.now c.rest c.cache c.computed.length s := by
  obtain ⟨now, cache, computed, rest, found, passed⟩ := c
  cases rest with
  | nil => rfl
  | cons hours rest =>
    simp only [next, Aggregator.refreshWindows]
    cases Aggregator.cutoff? hours now with
    | none => rfl
    | some since =>
      dsimp only
      cases Aggregator.compute hours since now s with
      | mk answer s => cases answer <;> rfl

theorem Computing.rest_next {c c' : Computing} {σ : Type} [EventStore σ] {s : σ}
    (h : (c.next s).1 = some c') : c'.rest = c.rest.tail ∧ c'.passed = c.passed := by
  rw [next] at h
  split at h
  · rename_i hrest
    cases h
    exact ⟨by rw [hrest]; rfl, rfl⟩
  · rename_i hours rest hrest
    rw [hrest]
    split at h
    · cases h
    · split at h <;> cases h <;> exact ⟨rfl, rfl⟩

namespace Aggregating

variable {σ : Type} [EventStore σ]

/-- Where a refresh stands that has gone through all windows. -/
def Through (s : Aggregating σ) (ticket : Nat) (result : Option BucketCache) : Prop :=
  match result with
  | none => s.calls.get? ticket = none
  | some cache => ∃ c, s.calls.get? ticket = some c ∧ c.rest = [] ∧ c.cache = cache

theorem run_compute_of_none {s : Aggregating σ} {ticket : Nat} (h : s.calls.get? ticket = none)
    (n : Nat) : s.run (List.replicate n (.compute ticket)) = s := by
  induction n with
  | zero => rfl
  | succ n ih =>
    have hstep : s.step (.compute ticket) = s := by rw [step, h]
    rw [List.replicate_succ, run, List.foldl_cons, hstep]
    exact ih

theorem run_compute {s : Aggregating σ} {ticket : Nat} {c : Computing}
    (hc : s.calls.get? ticket = some c) {n : Nat} (hn : c.rest.length = n) :
    let t := s.run (List.replicate n (.compute ticket))
    let r := Aggregator.refreshWindows c.now c.rest c.cache c.computed.length s.store
    t.toAggregator = s.toAggregator ∧ t.store = r.2 ∧ t.Through ticket (r.1.map (·.2)) := by
  induction n generalizing s c with
  | zero =>
    rw [List.length_eq_zero_iff] at hn
    rw [hn]
    exact ⟨rfl, rfl, c, hc, hn, rfl⟩
  | succ n ih =>
    have hstep : s.step (.compute ticket) = { s with
        store := (c.next s.store).2
        calls := s.calls.alter ticket fun _ => (c.next s.store).1 } := by
      rw [step, hc]
    have hcall : (s.step (.compute ticket)).calls.get? ticket = (c.next s.store).1 := by
      rw [hstep, SortedMap.get?_alter, if_pos rfl]
    rw [List.replicate_succ, run, List.foldl_cons, c.refreshWindows_next s.store]
    cases hnext : c.next s.store with
    | mk next store =>
      rw [hnext] at hstep hcall
      cases next with
      | none =>
        have hrest : (s.step (.compute ticket)).run (.replicate n (.compute ticket)) =
            s.step (.compute ticket) := run_compute_of_none hcall n
        rw [run] at hrest
        rw [hrest]
        exact ⟨by rw [hstep], by rw [hstep], hcall⟩
      | some c' =>
        obtain ⟨htail, _⟩ := Computing.rest_next (congrArg Prod.fst hnext)
        have hlength : c'.rest.length = n := by rw [htail, List.length_tail, hn, Nat.add_sub_cancel]
        obtain ⟨haggregator, hstore, hthrough⟩ := ih hcall hlength
        rw [hstep] at haggregator hstore hthrough ⊢
        exact ⟨haggregator, hstore, hthrough⟩

/-- Taken together the steps of a refresh do what `Aggregator.refresh` does. -/
theorem run_refresh (s : Aggregating σ) :
    let t := s.run (.begin :: List.replicate s.windows.length (.compute s.tickets) ++
      [.finish s.tickets])
    let r := s.refresh s.clock s.store
    t.store = r.2 ∧ t.toAggregator = (r.1.map (·.2)).getD s.toAggregator := by
  have hcall : (s.step .begin).calls.get? s.tickets =
      some (.start s.clock s.windows s.cache) := by
    rw [step, SortedMap.get?_insert, if_pos rfl]
  have hrun := run_compute hcall (n := s.windows.length) rfl
  intro t r
  have ht : t = ((s.step .begin).run (.replicate s.windows.length (.compute s.tickets))).step
      (.finish s.tickets) := List.foldl_append
  rw [ht]
  generalize (s.step .begin).run (.replicate s.windows.length (.compute s.tickets)) = u at hrun
  obtain ⟨haggregator, hstore, hthrough⟩ := hrun
  simp only [r, Aggregator.refresh]
  change u.toAggregator = s.toAggregator at haggregator
  change u.store = (Aggregator.refreshWindows s.clock s.windows s.cache 0 s.store).2 at hstore
  change u.Through s.tickets
    ((Aggregator.refreshWindows s.clock s.windows s.cache 0 s.store).1.map (·.2)) at hthrough
  cases hresult : Aggregator.refreshWindows s.clock s.windows s.cache 0 s.store with
  | mk result store =>
    rw [hresult] at hstore hthrough
    cases result with
    | none =>
      have hstep : u.step (.finish s.tickets) = u := by
        change u.calls.get? s.tickets = none at hthrough
        rw [step, hthrough]
      rw [hstep]
      exact ⟨hstore, haggregator⟩
    | some done =>
      obtain ⟨c, hc, hrest, hcache⟩ := hthrough
      have hstep : u.step (.finish s.tickets) =
          { u with cache := c.cache, calls := (u.drop s.tickets).map fun _ => c.pass } := by
        rw [step, hc]
        exact if_pos (List.isEmpty_iff.2 hrest)
      rw [hstep, hcache, haggregator]
      exact ⟨hstore, rfl⟩

end Aggregating

namespace Computing

/-- What holds of a refresh that goes on while no bucket is lost and none gets older. -/
structure Sound (clock : Instant) (cache : BucketCache) (c : Computing) : Prop where
  now_le : c.now.time ≤ clock.time
  found_le : ∀ hours, bucketTime c.found hours ≤ c.now.time
  computed : ∀ hours ∈ c.computed, bucketTime c.cache hours = c.now.time
  copied : ∀ hours, hours ∉ c.computed → bucketTime c.cache hours = bucketTime c.found hours
  kept : ∀ hours, bucketTime c.found hours ≤ bucketTime cache hours
  passed : ∀ p ∈ c.passed, ∀ hours ∈ p.2, p.1.time ≤ bucketTime cache hours
  /-- Each bucket was there from the start on or is that of a refresh completed since. -/
  origin : ∀ hours, bucketTime cache hours = bucketTime c.found hours ∨
    ∃ p ∈ c.passed, hours ∈ p.2 ∧ bucketTime cache hours = p.1.time

theorem sound_start {clock : Instant} {cache : BucketCache}
    (h : ∀ hours, bucketTime cache hours ≤ clock.time) (windows : List Int64) :
    (start clock windows cache).Sound clock cache where
  now_le := le_refl _
  found_le := h
  computed := nofun
  copied _ _ := rfl
  kept _ := le_refl _
  passed := nofun
  origin _ := .inl rfl

namespace Sound

variable {clock : Instant} {cache : BucketCache} {c : Computing}

theorem wait (h : c.Sound clock cache) {now : Instant} (hnow : clock.time ≤ now.time) :
    c.Sound now cache :=
  { h with now_le := h.now_le.trans hnow }

theorem next {σ : Type} [EventStore σ] (h : c.Sound clock cache) {s : σ} {c' : Computing}
    (hc' : (c.next s).1 = some c') : c'.Sound clock cache := by
  rw [Computing.next] at hc'
  split at hc'
  · cases hc'
    exact h
  · rename_i hours rest hrest
    split at hc'
    · cases hc'
    · rename_i since hsince
      split at hc'
      · rename_i bucket s' hbucket
        cases hc'
        have htime := Aggregator.calculatedAt_of_compute (congrArg Prod.fst hbucket)
        have hget (k : Int64) : bucketTime (c.cache.insert hours bucket) k =
            if k = hours then c.now.time else bucketTime c.cache k := by
          rw [bucketTime, SortedMap.get?_insert]
          split
          · rw [← htime]
            rfl
          · rfl
        refine ⟨h.now_le, h.found_le, ?_, ?_, h.kept, h.passed, h.origin⟩
        · intro k hk
          dsimp only
          rw [hget]
          split
          · rfl
          · rename_i hne
            exact h.computed k ((List.mem_cons.1 hk).resolve_left hne)
        · intro k hk
          dsimp only
          rw [hget, if_neg fun heq : k = hours => hk (heq ▸ List.mem_cons_self)]
          exact h.copied k fun hmem => hk (List.mem_cons_of_mem hours hmem)
      · cases hc'
        exact { h with }

theorem found_le_cache (h : c.Sound clock cache) (hours : Int64) :
    bucketTime c.found hours ≤ bucketTime c.cache hours := by
  by_cases hmem : hours ∈ c.computed
  · rw [h.computed hours hmem]
    exact h.found_le hours
  · rw [h.copied hours hmem]

theorem le_clock (h : c.Sound clock cache) (hours : Int64) :
    bucketTime c.cache hours ≤ clock.time := by
  by_cases hmem : hours ∈ c.computed
  · rw [h.computed hours hmem]
    exact h.now_le
  · rw [h.copied hours hmem]
    exact (h.found_le hours).trans h.now_le

/-- Putting the buckets in place keeps all that is cached exactly if the refresh was not overtaken. -/
theorem kept_iff (h : c.Sound clock cache) :
    (∀ hours, bucketTime cache hours ≤ bucketTime c.cache hours) ↔ ¬ c.Overtaken := by
  constructor
  · rintro hkept ⟨p, hp, hours, hhours, hlater⟩
    have hle := (h.passed p hp hours hhours).trans (hkept hours)
    obtain ⟨b, hb, hle⟩ := (time_le_bucketTime_iff _ hours _).1 hle
    exact hlater b hb hle
  · intro hnot hours
    rcases h.origin hours with heq | ⟨p, hp, hhours, heq⟩
    · rw [heq]
      exact h.found_le_cache hours
    · rw [heq, time_le_bucketTime_iff]
      by_contra hnone
      exact hnot ⟨p, hp, hours, hhours, fun b hb hle => hnone ⟨b, hb, hle⟩⟩

theorem pass (h : c.Sound clock cache) {done : Computing} (hdone : done.Sound clock cache)
    (hkept : ∀ hours, bucketTime cache hours ≤ bucketTime done.cache hours) :
    (done.pass c).Sound clock done.cache := by
  refine ⟨h.now_le, h.found_le, h.computed, h.copied, fun hours => (h.kept hours).trans (hkept hours),
    ?_, ?_⟩
  · intro p hp hours hhours
    rcases List.mem_append.1 hp with hp | hp
    · exact (h.passed p hp hours hhours).trans (hkept hours)
    · cases List.mem_singleton.1 hp
      exact le_of_eq (hdone.computed hours hhours).symm
  · intro hours
    by_cases hmem : hours ∈ done.computed
    · exact .inr ⟨_, List.mem_append_right _ (List.mem_singleton_self _), hmem,
        hdone.computed hours hmem⟩
    · -- The bucket was copied, so nothing newer can have been put in place in the meantime.
      have hsame : bucketTime done.cache hours = bucketTime cache hours := by
        apply le_antisymm _ (hkept hours)
        rw [hdone.copied hours hmem]
        exact hdone.kept hours
      rw [hsame]
      rcases h.origin hours with heq | ⟨p, hp, hhours, heq⟩
      · exact .inl heq
      · exact .inr ⟨p, List.mem_append_left _ hp, hhours, heq⟩

end Sound

end Computing

namespace Aggregating

variable {σ : Type}

/-- What holds while no bucket is lost and none gets older. -/
structure Sound (s : Aggregating σ) : Prop where
  clock : ∀ hours, bucketTime s.cache hours ≤ s.clock.time
  calls : ∀ ticket c, s.calls.get? ticket = some c → c.Sound s.clock s.cache

theorem Sound.start (windows : List Int64) (store : σ) (clock : Instant) :
    (start windows store clock).Sound :=
  ⟨fun _ => bot_le, nofun⟩

theorem get?_of_drop {s : Aggregating σ} {ticket ticket' : Nat} {c : Computing}
    (hc : (s.drop ticket).get? ticket' = some c) :
    ticket' ≠ ticket ∧ s.calls.get? ticket' = some c := by
  rw [drop, SortedMap.get?_alter] at hc
  split at hc
  · cases hc
  · exact ⟨‹_›, hc⟩

theorem Sound.drop {s : Aggregating σ} (h : s.Sound) {ticket ticket' : Nat} {c : Computing}
    (hc : (s.drop ticket).get? ticket' = some c) : c.Sound s.clock s.cache :=
  h.calls ticket' c (get?_of_drop hc).2

variable [EventStore σ]

/-- A step keeps all that is cached exactly if it does not complete an overtaken refresh. -/
theorem Sound.kept_step_iff {s : Aggregating σ} (h : s.Sound) (a : Action σ) :
    s.Kept (s.step a) ↔ ¬ s.Completes a := by
  rw [kept_iff]
  have ht := s.step_taken a
  generalize s.step a = t at ht
  have hsame {b : Action σ} (hb : ¬ s.Completes b) :
      (∀ hours, bucketTime s.cache hours ≤ bucketTime s.cache hours) ↔ ¬ s.Completes b :=
    iff_of_true (fun _ => le_refl _) hb
  cases ht with
  | stay ha => exact hsame ha
  | wait _ => exact hsame nofun
  | change _ => exact hsame nofun
  | begin => exact hsame nofun
  | compute _ => exact hsame nofun
  | abandon _ => exact hsame nofun
  | @finish ticket c hc hrest =>
    refine (h.calls ticket c hc).kept_iff.trans (not_congr ?_)
    constructor
    · exact fun hovertaken => ⟨ticket, c, rfl, hc, hrest, hovertaken⟩
    · rintro ⟨_, c', hticket, hc', _, hovertaken⟩
      cases hticket
      cases hc.symm.trans hc'
      exact hovertaken

theorem Sound.step {s : Aggregating σ} (h : s.Sound) {a : Action σ} (hkept : s.Kept (s.step a)) :
    (s.step a).Sound := by
  rw [Aggregating.kept_iff] at hkept
  have ht := s.step_taken a
  generalize s.step a = t at ht hkept
  cases ht with
  | stay _ => exact h
  | wait hnow =>
    have hle := Instant.time_le_iff.2 hnow
    exact ⟨fun hours => (h.clock hours).trans hle, fun ticket c hc => (h.calls ticket c hc).wait hle⟩
  | change _ => exact ⟨h.clock, h.calls⟩
  | begin =>
    refine ⟨h.clock, ?_⟩
    intro ticket c hc
    rw [SortedMap.get?_insert] at hc
    split at hc
    · cases hc
      exact Computing.sound_start h.clock s.windows
    · exact h.calls ticket c hc
  | @compute ticket d hd =>
    refine ⟨h.clock, ?_⟩
    intro ticket' c hc
    rw [SortedMap.get?_alter] at hc
    split at hc
    · exact (h.calls ticket d hd).next hc
    · exact h.calls ticket' c hc
  | @finish ticket done hdone _ =>
    have hsound := h.calls ticket done hdone
    refine ⟨hsound.le_clock, ?_⟩
    intro ticket' c hc
    rw [SortedMap.get?_map] at hc
    obtain ⟨c', hc', rfl⟩ := Option.map_eq_some_iff.1 hc
    exact Computing.Sound.pass (h.drop hc') hsound hkept
  | abandon ticket => exact ⟨h.clock, fun _ _ hc => h.drop hc⟩

theorem Keeps.kept_run {s : Aggregating σ} {actions : List (Action σ)} (h : s.Keeps actions) :
    s.Kept (s.run actions) := by
  rw [Aggregating.kept_iff]
  induction actions generalizing s with
  | nil => exact fun _ => le_refl _
  | cons a rest ih =>
    intro hours
    exact ((kept_iff _ _).1 h.1 hours).trans (ih h.2 hours)

theorem Keeps.of_append {s : Aggregating σ} {first last : List (Action σ)}
    (h : s.Keeps (first ++ last)) : (s.run first).Keeps last := by
  induction first generalizing s with
  | nil => exact h
  | cons a rest ih => exact ih h.2

theorem Sound.keeps_iff {s : Aggregating σ} (h : s.Sound) (actions : List (Action σ)) :
    s.Keeps actions ↔ s.Spares actions := by
  induction actions generalizing s with
  | nil => exact Iff.rfl
  | cons a rest ih =>
    constructor
    · rintro ⟨hkept, hrest⟩
      exact ⟨(h.kept_step_iff a).1 hkept, (ih (h.step hkept)).1 hrest⟩
    · rintro ⟨hspared, hrest⟩
      have hkept := (h.kept_step_iff a).2 hspared
      exact ⟨hkept, (ih (h.step hkept)).2 hrest⟩

/-- Whatever refreshes overlap, the cache never moves back exactly if no refresh is completed that
was overtaken. -/
theorem run_keeps_iff (windows : List Int64) (store : σ) (clock : Instant)
    (actions : List (Action σ)) :
    (start windows store clock).Keeps actions ↔ (start windows store clock).Spares actions :=
  (Sound.start windows store clock).keeps_iff actions

/-- A refresh takes a bucket back to when it began itself, or away if it failed to compute it. -/
theorem refresh_moves_back :
    let first := start [1] (⟨[], false, []⟩ : FixedCounts) ⟨1700000000, 0⟩
    let overlap : List (Action FixedCounts) :=
      [.begin, .wait ⟨1700000060, 0⟩, .begin, .compute 1, .finish 1]
    let s := first.run overlap
    let older : List (Action FixedCounts) := [.compute 0, .finish 0]
    let failed : List (Action FixedCounts) := [.change ⟨[], true, []⟩, .compute 0, .finish 0]
    (s.cached? 1).map (·.calculatedAt) = some ⟨1700000060, 0⟩ ∧
      ((s.run older).cached? 1).map (·.calculatedAt) = some ⟨1700000000, 0⟩ ∧
      ((s.run failed).cached? 1).map (·.calculatedAt) = none ∧
      ¬ first.Keeps (overlap ++ older) ∧ ¬ first.Keeps (overlap ++ failed) := by
  intro first overlap s older failed
  have hcached : (s.cached? 1).map (·.calculatedAt) = some ⟨1700000060, 0⟩ := by decide +kernel
  have holder : ((s.run older).cached? 1).map (·.calculatedAt) = some ⟨1700000000, 0⟩ := by
    decide +kernel
  have hfailed : ((s.run failed).cached? 1).map (·.calculatedAt) = none := by decide +kernel
  obtain ⟨b, hb, htime⟩ := Option.map_eq_some_iff.1 hcached
  refine ⟨hcached, holder, hfailed, ?_, ?_⟩
  · intro h
    obtain ⟨b', hb', hle⟩ := h.of_append.kept_run 1 b hb
    rw [hb'] at holder
    have htime' : b'.calculatedAt = ⟨1700000000, 0⟩ := Option.some.inj holder
    rw [htime, htime'] at hle
    exact absurd hle (by decide)
  · intro h
    obtain ⟨b', hb', _⟩ := h.of_append.kept_run 1 b hb
    rw [hb'] at hfailed
    cases hfailed

end Aggregating

namespace Aggregating

variable {σ : Type}

/-- What holds while refreshes do not overlap. -/
structure Alone (s : Aggregating σ) : Prop where
  unique : ∀ ticket c ticket' c',
    s.calls.get? ticket = some c → s.calls.get? ticket' = some c' → ticket' = ticket
  passed : ∀ ticket c, s.calls.get? ticket = some c → c.passed = []

theorem Alone.start (windows : List Int64) (store : σ) (clock : Instant) :
    (start windows store clock).Alone :=
  ⟨nofun, nofun⟩

theorem Alone.drop {s : Aggregating σ} (h : s.Alone) {ticket : Nat} {c : Computing}
    (hc : s.calls.get? ticket = some c) (ticket' : Nat) : (s.drop ticket).get? ticket' = none := by
  apply Option.eq_none_iff_forall_ne_some.2
  intro c' hc'
  obtain ⟨hne, hc'⟩ := get?_of_drop hc'
  exact hne (h.unique ticket c ticket' c' hc hc')

theorem Alone.not_completes {s : Aggregating σ} (h : s.Alone) (a : Action σ) :
    ¬ s.Completes a := by
  rintro ⟨ticket, c, _, hc, _, p, hp, _⟩
  rw [h.passed ticket c hc] at hp
  cases hp

variable [EventStore σ]

/-- A refresh begins only when no other one goes on. -/
def OneAtATime (s : Aggregating σ) : List (Action σ) → Prop
  | [] => True
  | a :: rest =>
    (a = .begin → ∀ ticket, s.calls.get? ticket = none) ∧ (s.step a).OneAtATime rest

theorem Alone.step {s : Aggregating σ} (h : s.Alone) {a : Action σ}
    (hbegin : a = .begin → ∀ ticket, s.calls.get? ticket = none) : (s.step a).Alone := by
  have ht := s.step_taken a
  generalize s.step a = t at ht
  cases ht with
  | stay _ => exact h
  | wait _ => exact ⟨h.unique, h.passed⟩
  | change _ => exact ⟨h.unique, h.passed⟩
  | begin =>
    have hget (ticket : Nat) (c : Computing)
        (hc : (s.calls.insert s.tickets (.start s.clock s.windows s.cache)).get? ticket = some c) :
        ticket = s.tickets ∧ c = .start s.clock s.windows s.cache := by
      rw [SortedMap.get?_insert] at hc
      split at hc
      · exact ⟨‹_›, (Option.some.inj hc).symm⟩
      · cases (hbegin rfl ticket).symm.trans hc
    constructor
    · intro ticket c ticket' c' hc hc'
      rw [(hget ticket c hc).1, (hget ticket' c' hc').1]
    · intro ticket c hc
      rw [(hget ticket c hc).2]
      rfl
  | @compute ticket d hd =>
    have hget (ticket' : Nat) (c : Computing)
        (hc : (s.calls.alter ticket fun _ => (d.next s.store).1).get? ticket' = some c) :
        ticket' = ticket ∧ c.passed = [] := by
      rw [SortedMap.get?_alter] at hc
      split at hc
      · exact ⟨‹_›, (Computing.rest_next hc).2.trans (h.passed ticket d hd)⟩
      · rename_i hne
        exact absurd (h.unique ticket d ticket' c hd hc) hne
    constructor
    · intro ticket₁ c₁ ticket₂ c₂ hc₁ hc₂
      rw [(hget ticket₁ c₁ hc₁).1, (hget ticket₂ c₂ hc₂).1]
    · exact fun ticket' c hc => (hget ticket' c hc).2
  | @finish ticket done hdone _ =>
    have hnone (ticket' : Nat) :
        ((s.drop ticket).map fun _ => done.pass).get? ticket' = none := by
      rw [SortedMap.get?_map, h.drop hdone ticket']
      rfl
    constructor
    · intro ticket₁ c₁ ticket₂ c₂ hc₁ hc₂
      cases (hnone ticket₁).symm.trans hc₁
    · intro ticket' c hc
      cases (hnone ticket').symm.trans hc
  | abandon ticket =>
    constructor
    · intro ticket₁ c₁ ticket₂ c₂ hc₁ hc₂
      exact h.unique ticket₁ c₁ ticket₂ c₂ (get?_of_drop hc₁).2 (get?_of_drop hc₂).2
    · exact fun ticket' c hc => h.passed ticket' c (get?_of_drop hc).2

theorem Alone.spares {s : Aggregating σ} (h : s.Alone) {actions : List (Action σ)}
    (hone : s.OneAtATime actions) : s.Spares actions := by
  induction actions generalizing s with
  | nil => trivial
  | cons a rest ih => exact ⟨h.not_completes a, ih (h.step hone.1) hone.2⟩

/-- Refreshes that do not overlap never move the cache back. -/
theorem keeps_of_oneAtATime {windows : List Int64} {store : σ} {clock : Instant}
    {actions : List (Action σ)} (h : (start windows store clock).OneAtATime actions) :
    (start windows store clock).Keeps actions :=
  ((Sound.start windows store clock).keeps_iff actions).2 ((Alone.start _ _ _).spares h)

end Aggregating

end ProviderScout
