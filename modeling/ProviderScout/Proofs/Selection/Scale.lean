import Mathlib.Tactic.Positivity
import ProviderScout.Proofs.Number.Exact
import ProviderScout.Proofs.Selection.Ranking
import ProviderScout.Proofs.Store.Benchmarks

namespace ProviderScout

def OnScale (x : Rat) : Prop := 0 ≤ x ∧ x ≤ 100

theorem OnScale.share {speed full : Rat} (hspeed : 0 ≤ speed) (hle : speed ≤ full)
    (hfull : 0 < full) : OnScale (100 * speed / full) := by
  constructor
  · positivity
  · rw [div_le_iff₀ hfull]
    linarith

namespace Tally

theorem onScale_successRate {t : Tally} (h : t.successes ≤ Counter.max) :
    OnScale (t.successRate Rat) := by
  have hsuccesses : t.successes ≤ t.samples := Nat.le_min.2 ⟨Nat.le_add_right _ _, h⟩
  rw [successRate]
  split
  · change OnScale 0.0
    norm_num [OnScale]
  · rename_i hpos
    change OnScale (100.0 * (t.successes : Rat) / (t.samples : Rat))
    norm_num only
    apply OnScale.share
    · exact Nat.cast_nonneg _
    · exact Nat.cast_le.2 hsuccesses
    · exact Nat.cast_pos.2 (Nat.pos_of_ne_zero hpos)

end Tally

namespace BenchmarkCache

theorem get?_ofList {α : Type} (speeds : List (BenchmarkSpeed α)) (provider : Nat) :
    (ofList speeds).get? provider = (speeds.filter (·.provider == provider)).getLast? := by
  induction speeds using List.reverseRecOn with
  | nil => rfl
  | append_singleton speeds s ih =>
    rw [get?, ofList, List.map_append, List.map_singleton, SortedMap.ofList_snoc,
      SortedMap.get?_insert, List.filter_append, List.filter_singleton]
    by_cases h : provider = s.provider
    · rw [if_pos h, beq_iff_eq.2 h.symm, cond_true, List.getLast?_concat]
    · rw [if_neg h, beq_false_of_ne (Ne.symm h), cond_false, List.append_nil]
      exact ih

variable {c : BenchmarkCache Rat}

theorem mbps_le_fastest {b : BenchmarkSpeed Rat} (h : b ∈ c.toList) : b.mbps ≤ c.fastest :=
  Quantity.le_largest (List.mem_map_of_mem h)

theorem normalized?_of_get? {provider : Nat} {b : BenchmarkSpeed Rat}
    (h : c.get? provider = some b) :
    c.normalized? provider = some (if c.fastest ≤ 0 then 50 else 100 * b.mbps / c.fastest) := by
  have hzero : (0.0 : Rat) = 0 := by norm_num
  have hneutral : (50.0 : Rat) = 50 := by norm_num
  have hhundred : (100.0 : Rat) = 100 := by norm_num
  rw [normalized?, h]
  change some (if c.fastest ≤ 0.0 then (50.0 : Rat) else 100.0 * b.mbps / c.fastest) = _
  rw [hzero, hneutral, hhundred]

theorem onScale_normalized (hc : ∀ b ∈ c.toList, 0 ≤ b.mbps) {provider : Nat} {share : Rat}
    (h : c.normalized? provider = some share) : OnScale share := by
  cases hb : c.get? provider with
  | none =>
    rw [normalized?, hb] at h
    cases h
  | some b =>
    have hmem := (c.mem_toList_iff b).2 ⟨provider, hb⟩
    rw [normalized?_of_get? hb] at h
    cases h
    split
    · norm_num [OnScale]
    · rename_i hfastest
      exact .share (hc b hmem) (mbps_le_fastest hmem) (not_le.1 hfastest)

theorem exists_normalized_hundred {b : BenchmarkSpeed Rat} (hb : b ∈ c.toList) (hpos : 0 < b.mbps) :
    ∃ provider, c.normalized? provider = some 100 := by
  have hfastest : 0 < c.fastest := lt_of_lt_of_le hpos (mbps_le_fastest hb)
  obtain ⟨top, htop, hsame⟩ := List.mem_map.1 (Quantity.largest_mem hfastest)
  obtain ⟨provider, hget⟩ := (c.mem_toList_iff top).1 htop
  have hshare : top.mbps = c.fastest := hsame
  refine ⟨provider, ?_⟩
  rw [normalized?_of_get? hget, if_neg (not_le.2 hfastest), hshare,
    mul_div_cancel_right₀ _ hfastest.ne']

end BenchmarkCache

/-- How much the parts of a score count. -/
structure Weights where
  rate : Rat
  share : Rat
  speed : Rat
  rate_nonneg : 0 ≤ rate := by norm_num
  share_nonneg : 0 ≤ share := by norm_num
  speed_nonneg : 0 ≤ speed := by norm_num
  sum_le_one : rate + share + speed ≤ 1 := by norm_num

namespace Weights

def mean (w : Weights) (rate share speed : Rat) : Rat :=
  w.rate * rate + w.share * share + w.speed * speed

theorem onScale_mean (w : Weights) {rate share speed : Rat} (hrate : OnScale rate)
    (hshare : OnScale share) (hspeed : OnScale speed) : OnScale (w.mean rate share speed) := by
  have hsum := w.sum_le_one
  have hrate0 := mul_nonneg w.rate_nonneg hrate.1
  have hshare0 := mul_nonneg w.share_nonneg hshare.1
  have hspeed0 := mul_nonneg w.speed_nonneg hspeed.1
  have hrate100 := mul_le_mul_of_nonneg_left hrate.2 w.rate_nonneg
  have hshare100 := mul_le_mul_of_nonneg_left hshare.2 w.share_nonneg
  have hspeed100 := mul_le_mul_of_nonneg_left hspeed.2 w.speed_nonneg
  rw [mean]
  constructor <;> linarith

theorem mean_mono (w : Weights) {rate better share speed : Rat} (h : rate ≤ better) :
    w.mean rate share speed ≤ w.mean better share speed := by
  have hrate := mul_le_mul_of_nonneg_left h w.rate_nonneg
  rw [mean, mean]
  linarith

end Weights

namespace Policy

/-- The weights of a provider's score: with a benchmark of its own, with benchmarks of others only,
or without any. -/
def weights (benchmarks : BenchmarkCache Rat) (provider : Nat) : Weights :=
  match benchmarks.normalized? provider with
  | some _ => { rate := 2 / 5, share := 7 / 20, speed := 1 / 4 }
  | none =>
    if benchmarks.isEmpty then { rate := 9 / 20, share := 0, speed := 11 / 20 }
    else { rate := 9 / 20, share := 0, speed := 7 / 20 }

section FullSpeed

variable (known : List (Nat × Performance Rat))

theorem fullSpeed_eq : fullSpeed known =
    if 0 < Quantity.largest (known.map (·.2.speed)) then
      Quantity.largest (known.map (·.2.speed))
    else 1 := by
  have hzero : (0.0 : Rat) = 0 := by norm_num
  have hone : (1.0 : Rat) = 1 := by norm_num
  rw [fullSpeed]
  change (if (0.0 : Rat) < _ then _ else (1.0 : Rat)) = _
  rw [hzero, hone]

theorem fullSpeed_pos : 0 < fullSpeed known := by
  rw [fullSpeed_eq]
  split
  · assumption
  · exact one_pos

theorem speed_le_fullSpeed {m : Nat × Performance Rat} (hm : m ∈ known) :
    m.2.speed ≤ fullSpeed known := by
  have hle := Quantity.le_largest (List.mem_map_of_mem (f := fun m => m.2.speed) hm)
  rw [fullSpeed_eq]
  split
  · exact hle
  · rename_i hnone
    linarith

end FullSpeed

theorem fullSpeed_congr {known other : List (Nat × Performance Rat)}
    (h : ∀ x, x ∈ known.map (·.2.speed) ↔ x ∈ other.map (·.2.speed)) :
    fullSpeed known = fullSpeed other := by
  have hlargest : Quantity.largest (known.map (·.2.speed)) =
      Quantity.largest (other.map (·.2.speed)) := by
    apply le_antisymm <;> rw [Quantity.largest_le_iff]
    · exact ⟨Quantity.largest_nonneg _, fun x hx => Quantity.le_largest ((h x).1 hx)⟩
    · exact ⟨Quantity.largest_nonneg _, fun x hx => Quantity.le_largest ((h x).2 hx)⟩
  rw [fullSpeed_eq, fullSpeed_eq, hlargest]

theorem score_eq (benchmarks : BenchmarkCache Rat) (full : Rat) (m : Nat × Performance Rat) :
    score benchmarks full m =
      (weights benchmarks m.1).mean m.2.successRate ((benchmarks.normalized? m.1).getD 0)
        (100 * m.2.speed / full) := by
  rw [score, weights]
  cases benchmarks.normalized? m.1 with
  | some share =>
    change 0.40 * m.2.successRate + 0.35 * share + 0.25 * (100.0 * m.2.speed / full) =
      2 / 5 * m.2.successRate + 7 / 20 * share + 1 / 4 * (100 * m.2.speed / full)
    norm_num only
  | none =>
    dsimp only
    split
    · change 0.45 * m.2.successRate + 0.55 * (100.0 * m.2.speed / full) =
        9 / 20 * m.2.successRate + 0 * 0 + 11 / 20 * (100 * m.2.speed / full)
      norm_num
    · change 0.45 * m.2.successRate + 0.35 * (100.0 * m.2.speed / full) =
        9 / 20 * m.2.successRate + 0 * 0 + 7 / 20 * (100 * m.2.speed / full)
      norm_num

theorem onScale_score {benchmarks : BenchmarkCache Rat} {full : Rat} {m : Nat × Performance Rat}
    (hrate : OnScale m.2.successRate) (hspeed : OnScale (100 * m.2.speed / full))
    (hshare : ∀ share, benchmarks.normalized? m.1 = some share → OnScale share) :
    OnScale (score benchmarks full m) := by
  rw [score_eq]
  apply Weights.onScale_mean _ hrate _ hspeed
  cases hb : benchmarks.normalized? m.1 with
  | some share => exact hshare share hb
  | none => norm_num [OnScale]

theorem score_mono (benchmarks : BenchmarkCache Rat) (full : Rat) {provider : Nat}
    {known better : Performance Rat} (hspeed : better.speed = known.speed)
    (hrate : known.successRate ≤ better.successRate) :
    score benchmarks full (provider, known) ≤ score benchmarks full (provider, better) := by
  rw [score_eq, score_eq, hspeed]
  exact Weights.mean_mono _ hrate

theorem mem_eligible_iff {α : Type} (p : Policy) (models : List (Nat × Performance α))
    (m : Nat × Performance α) : m ∈ p.eligible models ↔ m ∈ models ∧ p.isEligible m = true := by
  rw [eligible, List.mem_mergeSort, List.mem_filter]

theorem onScale_share {p : Policy} {models : List (Nat × Performance Rat)}
    (hspeeds : ∀ m ∈ p.eligible models, 0 ≤ m.2.speed) {m : Nat × Performance Rat}
    (hm : m ∈ p.eligible models) :
    OnScale (100 * m.2.speed / fullSpeed (p.eligible models)) :=
  .share (hspeeds m hm) (speed_le_fullSpeed _ hm) (fullSpeed_pos _)

section Replaced

variable {p : Policy} {front back : List (Nat × Performance Rat)} {provider : Nat}
  {known other : Performance Rat}

theorem mem_eligible_replaced
    (henough : p.minSamples ≤ other.tally.successes ↔ p.minSamples ≤ known.tally.successes)
    {m : Nat × Performance Rat} (hm : m ∈ p.eligible (front ++ (provider, known) :: back)) :
    m ∈ p.eligible (front ++ (provider, other) :: back) ∨
      m = (provider, known) ∧
        (provider, other) ∈ p.eligible (front ++ (provider, other) :: back) := by
  rw [mem_eligible_iff, List.mem_append, List.mem_cons] at hm
  obtain ⟨hmem, heligible⟩ := hm
  rcases hmem with hfront | rfl | hback
  · left
    rw [mem_eligible_iff]
    exact ⟨List.mem_append_left _ hfront, heligible⟩
  · right
    refine ⟨rfl, ?_⟩
    rw [mem_eligible_iff]
    refine ⟨List.mem_append_right _ List.mem_cons_self, ?_⟩
    rw [isEligible, Bool.and_eq_true, decide_eq_true_iff] at heligible ⊢
    exact ⟨heligible.1, henough.2 heligible.2⟩
  · left
    rw [mem_eligible_iff]
    exact ⟨List.mem_append_right _ (List.mem_cons_of_mem _ hback), heligible⟩

theorem mem_speeds_replaced
    (henough : p.minSamples ≤ other.tally.successes ↔ p.minSamples ≤ known.tally.successes)
    (hspeed : other.speed = known.speed) {x : Rat}
    (hx : x ∈ (p.eligible (front ++ (provider, known) :: back)).map (·.2.speed)) :
    x ∈ (p.eligible (front ++ (provider, other) :: back)).map (·.2.speed) := by
  obtain ⟨m, hm, rfl⟩ := List.mem_map.1 hx
  rw [List.mem_map]
  rcases mem_eligible_replaced henough hm with hother | ⟨rfl, hother⟩
  · exact ⟨m, hother, rfl⟩
  · exact ⟨_, hother, hspeed⟩

theorem fullSpeed_replaced
    (henough : p.minSamples ≤ other.tally.successes ↔ p.minSamples ≤ known.tally.successes)
    (hspeed : other.speed = known.speed) :
    fullSpeed (p.eligible (front ++ (provider, known) :: back)) =
      fullSpeed (p.eligible (front ++ (provider, other) :: back)) := by
  apply fullSpeed_congr
  intro x
  exact ⟨mem_speeds_replaced henough hspeed, mem_speeds_replaced henough.symm hspeed.symm⟩

theorem mem_scored_replaced (benchmarks : BenchmarkCache Rat)
    (henough : p.minSamples ≤ other.tally.successes ↔ p.minSamples ≤ known.tally.successes)
    (hspeed : other.speed = known.speed) {s : Scored Rat} (hs : s.provider ≠ provider)
    (h : s ∈ p.scored (front ++ (provider, known) :: back) benchmarks) :
    s ∈ p.scored (front ++ (provider, other) :: back) benchmarks := by
  rw [mem_scored_iff, fullSpeed_replaced henough hspeed] at h
  obtain ⟨m, hm, rfl⟩ := h
  rw [mem_scored_iff]
  rcases mem_eligible_replaced henough hm with hother | ⟨rfl, _⟩
  · exact ⟨m, hother, rfl⟩
  · exact absurd rfl hs

theorem exists_mem_scored_replaced (benchmarks : BenchmarkCache Rat)
    (henough : p.minSamples ≤ other.tally.successes ↔ p.minSamples ≤ known.tally.successes)
    (hspeed : other.speed = known.speed) (hrate : known.successRate ≤ other.successRate)
    {s : Scored Rat} (h : s ∈ p.scored (front ++ (provider, known) :: back) benchmarks) :
    ∃ s' ∈ p.scored (front ++ (provider, other) :: back) benchmarks,
      s'.provider = s.provider ∧ s.score ≤ s'.score := by
  rw [mem_scored_iff, fullSpeed_replaced henough hspeed] at h
  obtain ⟨m, hm, rfl⟩ := h
  simp only [mem_scored_iff]
  rcases mem_eligible_replaced henough hm with hother | ⟨rfl, hother⟩
  · exact ⟨_, ⟨m, hother, rfl⟩, rfl, le_refl _⟩
  · exact ⟨_, ⟨_, hother, rfl⟩, rfl, score_mono benchmarks _ hspeed hrate⟩

end Replaced

/-- Two lists of models that differ in the totals of one provider, whose success rate is not lower
in the second. It has succeeded often enough to be ranked in both or in none. -/
inductive Raised (p : Policy) (provider : Nat) :
    List (Nat × Performance Rat) → List (Nat × Performance Rat) → Prop
  | intro (front back : List (Nat × Performance Rat)) {known better : Performance Rat}
      (hspeed : better.speed = known.speed) (hrate : known.successRate ≤ better.successRate)
      (henough : p.minSamples ≤ better.tally.successes ↔ p.minSamples ≤ known.tally.successes) :
      Raised p provider (front ++ (provider, known) :: back) (front ++ (provider, better) :: back)

theorem exists_ranking (p : Policy) (models : List (Nat × Performance Rat))
    (benchmarks : BenchmarkCache Rat) : ∃ ranked, p.ranking models benchmarks = some ranked :=
  ⟨_, ranking_eq_some_iff.2 ⟨.inr (.inl fun s _ => le_refl s.score), rfl⟩⟩

/-- Providers are ranked with scores, benchmarks and speeds from 0 to 100, and the fastest benchmark
of those kept is 100 if it is a speed at all. A provider whose success rate is raised does not lose,
and no other gains or loses by it. -/
theorem onScale_scores (p : Policy) {models : List (Nat × Performance Rat)}
    (hspeeds : ∀ m ∈ p.eligible models, 0 ≤ m.2.speed)
    (hcounters : ∀ m ∈ p.eligible models, m.2.tally.successes ≤ Counter.max)
    {speeds : List (BenchmarkSpeed Rat)} (hbenchmarks : ∀ b ∈ speeds, 0 ≤ b.mbps) :
    let known := p.eligible models
    let benchmarks := BenchmarkCache.ofList speeds
    ∃ ranked, p.ranking models benchmarks = some ranked ∧
      (∀ provider, benchmarks.get? provider =
        (speeds.filter (·.provider == provider)).getLast?) ∧
      (∀ s ∈ ranked, OnScale s.score) ∧
      (∀ provider share, benchmarks.normalized? provider = some share → OnScale share) ∧
      (∀ m ∈ known, OnScale (100 * m.2.speed / fullSpeed known)) ∧
      (∀ provider, ∀ b ∈ benchmarks.get? provider, 0 < b.mbps →
        ∃ top, benchmarks.normalized? top = some 100) ∧
      ∀ provider raised, p.Raised provider models raised →
        ∃ rankedAgain, p.ranking raised benchmarks = some rankedAgain ∧
          (∀ s ∈ ranked, s.provider = provider →
            ∃ s' ∈ rankedAgain, s'.provider = provider ∧ s.score ≤ s'.score) ∧
          ∀ s, s.provider ≠ provider → (s ∈ rankedAgain ↔ s ∈ ranked) := by
  intro known benchmarks
  have hkept : ∀ b ∈ benchmarks.toList, 0 ≤ b.mbps := by
    intro b hb
    obtain ⟨provider, hget⟩ := (benchmarks.mem_toList_iff b).1 hb
    rw [BenchmarkCache.get?_ofList] at hget
    exact hbenchmarks b (List.mem_of_mem_filter (List.mem_of_getLast? hget))
  obtain ⟨ranked, hranked⟩ := p.exists_ranking models benchmarks
  refine ⟨ranked, hranked, BenchmarkCache.get?_ofList speeds, ?_, ?_, ?_, ?_, ?_⟩
  · intro s hs
    rw [mem_ranking_iff hranked] at hs
    obtain ⟨m, hm, rfl⟩ := (p.mem_scored_iff models benchmarks s).1 hs
    have hrate := Tally.onScale_successRate (hcounters m hm)
    exact onScale_score hrate (onScale_share hspeeds hm) fun _ =>
      BenchmarkCache.onScale_normalized hkept
  · exact fun _ _ => BenchmarkCache.onScale_normalized hkept
  · exact fun _ => onScale_share hspeeds
  · intro provider b hb hpos
    exact BenchmarkCache.exists_normalized_hundred
      ((benchmarks.mem_toList_iff b).2 ⟨provider, hb⟩) hpos
  · intro provider raised hraised
    obtain ⟨rankedAgain, hagain⟩ := p.exists_ranking raised benchmarks
    refine ⟨rankedAgain, hagain, ?_⟩
    simp only [mem_ranking_iff hranked, mem_ranking_iff hagain]
    cases hraised with
    | intro front back hspeed hrate henough =>
      constructor
      · rintro s hs rfl
        exact exists_mem_scored_replaced benchmarks henough hspeed hrate hs
      · intro s hs
        exact ⟨mem_scored_replaced benchmarks henough.symm hspeed.symm hs,
          mem_scored_replaced benchmarks henough hspeed hs⟩

/-- The first benchmark of provider 1 counts no more, and its one failure is taken back. -/
theorem onScale_scores_of_replaced_benchmark :
    let known (successes failures : Nat) (speed : Rat) : Performance Rat :=
      ⟨⟨successes, failures, 0, 0⟩, speed⟩
    let models := [(0, known 12 0 5000000), (1, known 15 1 4000000)]
    let raised := [(0, known 12 0 5000000), (1, known 15 0 4000000)]
    let speeds : List (BenchmarkSpeed Rat) := [⟨1, 400, ⟨0, 0⟩⟩, ⟨0, 50, ⟨0, 0⟩⟩, ⟨1, 100, ⟨60, 0⟩⟩]
    let p : Policy := ⟨[.pooled, .pooled, .pooled], 3, 10, 0⟩
    let benchmarks := BenchmarkCache.ofList speeds
    (∀ m ∈ p.eligible models, 0 ≤ m.2.speed) ∧
      (∀ m ∈ p.eligible models, m.2.tally.successes ≤ Counter.max) ∧
      (∀ b ∈ speeds, 0 ≤ b.mbps) ∧
      (∃ ranked, p.ranking models benchmarks = some ranked ∧
        ranked.map (fun s => (s.provider, s.score)) = [(1, 185 / 2), (0, 165 / 2)]) ∧
      (∃ top, benchmarks.normalized? top = some 100) ∧
      ∃ ranked, p.ranking raised benchmarks = some ranked ∧
        ∃ s ∈ ranked, s.provider = 1 ∧ 185 / 2 ≤ s.score := by
  intro known models raised speeds p benchmarks
  have heligible : p.eligible models = models := by
    rw [p.eligible_of_ascending (by decide +kernel)]
    rfl
  have hspeeds : ∀ m ∈ p.eligible models, 0 ≤ m.2.speed := by
    rw [heligible]
    decide +kernel
  have hcounters : ∀ m ∈ p.eligible models, m.2.tally.successes ≤ Counter.max := by
    rw [heligible]
    decide +kernel
  have hbenchmarks : ∀ b ∈ speeds, 0 ≤ b.mbps := by decide +kernel
  have hscores : (p.ranking models benchmarks).map
      (fun ranked => ranked.map fun s => (s.provider, s.score)) =
        some [(1, 185 / 2), (0, 165 / 2)] := by
    rw [ranking, scored, heligible]
    decide +kernel
  obtain ⟨ranked, hranked, _, _, _, _, htop, hraised⟩ :=
    p.onScale_scores hspeeds hcounters hbenchmarks
  rw [hranked] at hscores
  have hscored : ranked.map (fun s => (s.provider, s.score)) = [(1, 185 / 2), (0, 165 / 2)] :=
    Option.some.inj hscores
  have hrise : p.Raised 1 ([(0, known 12 0 5000000)] ++ (1, known 15 1 4000000) :: [])
      ([(0, known 12 0 5000000)] ++ (1, known 15 0 4000000) :: []) :=
    .intro _ _ rfl (by decide +kernel) (by decide)
  have hmem : (1, (185 / 2 : Rat)) ∈ ranked.map fun s => (s.provider, s.score) := by
    rw [hscored]
    exact List.mem_cons_self
  obtain ⟨s, hs, hsame⟩ := List.mem_map.1 hmem
  obtain ⟨hprovider, hscore⟩ := Prod.mk.inj hsame
  obtain ⟨again, hagain, hrises, _⟩ := hraised 1 raised hrise
  obtain ⟨s', hs', hprovider', hle⟩ := hrises s hs hprovider
  refine ⟨hspeeds, hcounters, hbenchmarks, ⟨ranked, hranked, hscored⟩, ?_, again, hagain, s', hs',
    hprovider', ?_⟩
  · exact htop 1 ⟨1, 100, ⟨60, 0⟩⟩ (by decide +kernel) (by decide +kernel)
  · rwa [hscore] at hle

end Policy

end ProviderScout
