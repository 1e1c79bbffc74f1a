import ProviderScout.Proofs.Engine.Measures
import ProviderScout.Proofs.Selection.Preference

namespace ProviderScout

open Double

/-- Whether one entry of a ranking may stand before another: it does not score less, and of entries
that score the same the one with the smaller index goes first. -/
def Scored.Precedes (a b : Scored Float) : Prop :=
  ¬ a.score < b.score ∧ ((a.score == b.score) = true → a.provider < b.provider)

/-- Whether a ranking is in order. -/
structure InOrder (ranked : List (Scored Float)) : Prop where
  numbers : ∀ s ∈ ranked, s.score.isNaN = false
  sorted : ranked.Pairwise Scored.Precedes
  best : ∀ first ∈ ranked.head?, ∀ s ∈ ranked, s.score ≤ first.score

namespace Scored

abbrev IsNumber (s : Scored Float) : Prop := ¬ s.score.isNaN

theorem precedes_iff {a b : Scored Float} (ha : a.IsNumber) (hb : b.IsNumber) :
    a.Precedes b ↔ key (parts b.score) < key (parts a.score) ∨
      key (parts a.score) = key (parts b.score) ∧ a.provider < b.provider := by
  rw [Precedes, lt_iff_key ha hb, beq_iff_key ha hb, not_lt, le_iff_lt_or_eq]
  constructor
  · rintro ⟨hlt | heq, hties⟩
    · exact .inl hlt
    · exact .inr ⟨heq.symm, hties heq.symm⟩
  · rintro (hlt | ⟨heq, hprovider⟩)
    · exact ⟨.inl hlt, fun heq => absurd heq (ne_of_gt hlt)⟩
    · exact ⟨.inr heq.symm, fun _ => hprovider⟩

theorem Precedes.trans {a b c : Scored Float} (ha : a.IsNumber) (hb : b.IsNumber)
    (hc : c.IsNumber) (hab : a.Precedes b) (hbc : b.Precedes c) : a.Precedes c := by
  rw [precedes_iff ha hb] at hab
  rw [precedes_iff hb hc] at hbc
  rw [precedes_iff ha hc]
  rcases hab with hab | ⟨hab, hp⟩
  · left
    rcases hbc with hbc | ⟨hbc, _⟩
    · exact lt_trans hbc hab
    · rwa [← hbc]
  · rw [hab]
    exact hbc.imp_right fun ⟨hbc, hq⟩ => ⟨hbc, Nat.lt_trans hp hq⟩

theorem Precedes.score_le {a b : Scored Float} (ha : a.IsNumber) (hb : b.IsNumber)
    (hab : a.Precedes b) : b.score ≤ a.score := by
  rw [le_iff_key hb ha]
  exact le_of_not_gt (mt (lt_iff_key ha hb).2 hab.1)

end Scored

namespace Policy

open Scored

theorem pairwise_insertReversed {x : Scored Float} (hx : x.IsNumber) {ranked : List (Scored Float)}
    (hnumbers : ∀ y ∈ ranked, y.IsNumber) (hlater : ∀ y ∈ ranked, y.provider < x.provider)
    (h : ranked.Pairwise fun b a => a.Precedes b) :
    (insertReversed x ranked).Pairwise fun b a => a.Precedes b := by
  induction ranked with
  | nil => exact List.pairwise_singleton _ x
  | cons y rest ih =>
    obtain ⟨hy, hrest⟩ := List.forall_mem_cons.1 hnumbers
    obtain ⟨hyx, hlater⟩ := List.forall_mem_cons.1 hlater
    obtain ⟨hfirst, h⟩ := List.pairwise_cons.1 h
    rw [insertReversed]
    split
    · rename_i hlt
      apply List.Pairwise.cons _ (ih hrest hlater h)
      intro z hz
      rcases (mem_insertReversed_iff x z rest).1 hz with rfl | hz
      · exact (precedes_iff hx hy).2 (.inl ((lt_iff_key hy hx).1 hlt))
      · exact hfirst z hz
    · rename_i hlt
      have hprecedes : y.Precedes x := ⟨hlt, fun _ => hyx⟩
      apply List.Pairwise.cons _ (.cons hfirst h)
      intro z hz
      rcases List.mem_cons.1 hz with rfl | hz
      · exact hprecedes
      · exact Precedes.trans (hrest z hz) hy hx (hfirst z hz) hprecedes

theorem pairwise_insertAll {scored : List (Scored Float)} (hnumbers : ∀ s ∈ scored, s.IsNumber)
    (hascending : scored.Pairwise fun a b => a.provider < b.provider) :
    (insertAll scored).Pairwise Precedes := by
  have hfold (ranked : List (Scored Float)) (hranked : ∀ y ∈ ranked, y.IsNumber)
      (hlater : ∀ y ∈ ranked, ∀ x ∈ scored, y.provider < x.provider)
      (h : ranked.Pairwise fun b a => a.Precedes b) :
      (scored.foldl (fun ranked x => insertReversed x ranked) ranked).Pairwise
        fun b a => a.Precedes b := by
    induction scored generalizing ranked with
    | nil => exact h
    | cons x rest ih =>
      obtain ⟨hx, hrest⟩ := List.forall_mem_cons.1 hnumbers
      obtain ⟨hfirst, hascending⟩ := List.pairwise_cons.1 hascending
      have hinsert := pairwise_insertReversed hx hranked
        (fun y hy => hlater y hy x List.mem_cons_self) h
      apply ih hrest hascending _ _ _ hinsert
      · intro y hy
        rcases (mem_insertReversed_iff x y ranked).1 hy with rfl | hy
        · exact hx
        · exact hranked y hy
      · intro y hy z hz
        rcases (mem_insertReversed_iff x y ranked).1 hy with rfl | hy
        · exact hfirst z hz
        · exact hlater y hy z (List.mem_cons_of_mem x hz)
  rw [insertAll, List.pairwise_reverse]
  exact hfold [] (List.forall_mem_nil _) (List.forall_mem_nil _) .nil

theorem inOrder_insertAll {scored : List (Scored Float)} (hnumbers : ∀ s ∈ scored, s.IsNumber)
    (hascending : scored.Pairwise fun a b => a.provider < b.provider) :
    InOrder (insertAll scored) := by
  have hall : ∀ s ∈ insertAll scored, s.IsNumber := fun s hs =>
    hnumbers s ((mem_insertAll_iff s scored).1 hs)
  have hsorted := pairwise_insertAll hnumbers hascending
  refine ⟨fun s hs => Bool.eq_false_of_not_eq_true (hall s hs), hsorted, ?_⟩
  intro first hfirst s hs
  cases hranked : insertAll scored with
  | nil =>
    rw [hranked] at hs
    cases hs
  | cons top rest =>
    rw [hranked] at hall hsorted hfirst hs
    cases hfirst
    obtain ⟨htop, hrest⟩ := List.forall_mem_cons.1 hall
    rcases List.mem_cons.1 hs with rfl | hs
    · exact (le_iff_key htop htop).2 (le_refl _)
    · exact ((List.pairwise_cons.1 hsorted).1 s hs).score_le htop (hrest s hs)

theorem eligible_ascending {α : Type} (p : Policy) {models : List (Nat × Performance α)}
    (h : (models.map (·.1)).Nodup) : (p.eligible models).Pairwise fun a b => a.1 < b.1 := by
  have hperm : (p.eligible models).Perm (models.filter p.isEligible) := List.mergeSort_perm _ _
  have hnodup : ((p.eligible models).map (·.1)).Nodup :=
    (hperm.map _).nodup_iff.2 (h.sublist (List.filter_sublist.map _))
  have hsorted : (p.eligible models).Pairwise fun a b => a.1 ≤ b.1 := by
    have htrans (a b c : Nat × Performance α) (hab : decide (a.1 ≤ b.1) = true)
        (hbc : decide (b.1 ≤ c.1) = true) : decide (a.1 ≤ c.1) = true := by
      rw [decide_eq_true_iff] at hab hbc ⊢
      exact Nat.le_trans hab hbc
    have htotal (a b : Nat × Performance α) :
        (decide (a.1 ≤ b.1) || decide (b.1 ≤ a.1)) = true := by
      rw [Bool.or_eq_true, decide_eq_true_iff, decide_eq_true_iff]
      exact Nat.le_total a.1 b.1
    exact (List.pairwise_mergeSort htrans htotal _).imp of_decide_eq_true
  exact hsorted.imp₂ (fun _ _ hle hne => Nat.lt_of_le_of_ne hle hne) (List.pairwise_map.1 hnodup)

theorem eligible_of_ascending {α : Type} (p : Policy) {models : List (Nat × Performance α)}
    (h : models.Pairwise fun a b => a.1 ≤ b.1) : p.eligible models = models.filter p.isEligible :=
  List.mergeSort_of_pairwise ((h.filter p.isEligible).imp decide_eq_true)

end Policy

namespace Engine

theorem providers_nodup (e : Engine) (job : String) :
    ((e.performances job).map (·.1)).Nodup :=
  List.pairwise_map.2 ((e.performances_ascending job).imp Nat.ne_of_lt)

end Engine

namespace BenchmarkCache

/-- Whether the benchmark of a provider has no share of the fastest one: both are infinite, the
first at least once it is counted in percent. -/
def HasNoShare (c : BenchmarkCache Float) (provider : Nat) : Prop :=
  c.fastest.isInf = true ∧ ∃ b, c.get? provider = some b ∧ (100.0 * b.mbps).isInf = true

theorem mem_toList_iff {α : Type} (c : BenchmarkCache α) (b : BenchmarkSpeed α) :
    b ∈ c.toList ↔ ∃ provider, c.get? provider = some b :=
  c.speeds.mem_values_iff b

/-- A share of a positive speed is no number exactly if it is one of two infinite ones. -/
theorem isNaN_share {speed fastest : Float} (hspeed : ¬ speed.isNaN) (hpos : 0.0 < fastest) :
    (100.0 * speed / fastest).isNaN = true ↔
      fastest.isInf = true ∧ (100.0 * speed).isInf = true := by
  have hhundred : Below 7 (100.0 : Float) ∧ From 6 (100.0 : Float) := by decide +kernel
  rw [isNaN_div _ (from_of_pos hpos), isNaN_mul hhundred.1 hhundred.2,
    Bool.eq_false_of_not_eq_true hspeed, Bool.false_or, Bool.and_eq_true, and_comm]

theorem isNaN_normalized {c : BenchmarkCache Float} (hc : ∀ b ∈ c.toList, ¬ b.mbps.isNaN)
    {provider : Nat} {x : Float} (hx : c.normalized? provider = some x) :
    x.isNaN = true ↔ c.HasNoShare provider := by
  have hspeeds : ∀ x ∈ c.toList.map (·.mbps), ¬ x.isNaN := by
    intro x hx
    obtain ⟨b, hb, rfl⟩ := List.mem_map.1 hx
    exact hc b hb
  have hlargest := largest_spec hspeeds
  have hnumber : ¬ c.fastest.isNaN := hlargest.1
  have hleast : 0.0 ≤ c.fastest := hlargest.2.1
  rw [normalized?, Option.map_eq_some_iff] at hx
  obtain ⟨b, hb, hx⟩ := hx
  have hmbps := hc b ((c.mem_toList_iff b).2 ⟨provider, hb⟩)
  simp only [HasNoShare, hb, Option.some.injEq, exists_eq_left']
  generalize c.fastest = fastest at *
  subst hx
  by_cases hzero : fastest ≤ 0.0
  · have hfinite := not_isInf_of_zero hzero hleast
    rw [if_pos hzero]
    exact iff_of_false (by decide +kernel) fun h => hfinite h.1
  · rw [if_neg hzero]
    exact isNaN_share hmbps (lt_of_not_le hnumber (by decide +kernel) hzero)

end BenchmarkCache

namespace Policy

theorem below_share {known : List (Nat × Performance Float)}
    (hspeeds : ∀ m ∈ known, Below 88 m.2.speed) {m : Nat × Performance Float} (hm : m ∈ known) :
    Below 97 (100.0 * m.2.speed / fullSpeed known) := by
  have hhundred : Below 7 (100.0 : Float) := by decide +kernel
  have hbelow : ∀ x ∈ known.map (·.2.speed), Below 88 x := by
    intro x hx
    obtain ⟨n, hn, rfl⟩ := List.mem_map.1 hx
    exact hspeeds n hn
  have hlargest := below_largest hbelow
  have hmost := (largest_spec fun x hx => by rw [isNaN_of_below (hbelow x hx)]; exact nofun).2.2
    m.2.speed (List.mem_map_of_mem (f := fun m => m.2.speed) hm)
  rw [fullSpeed]
  generalize Quantity.largest (known.map (·.2.speed)) = most at hlargest hmost
  split
  · rename_i hpos
    obtain ⟨t, hleast, ht, hbelowt, hfromt⟩ := exists_place hlargest hpos
    have hspeed := below_of_le (hspeeds m hm) hbelowt hmost
    have hpercent := below_mul hhundred hspeed (by omega) (by omega)
    exact below_mono (by omega) (below_div hpercent hfromt (by omega) (by omega))
  · have hpercent : Below 96 (100.0 * m.2.speed) :=
      below_mul hhundred (hspeeds m hm) (by decide) (by decide)
    have hone : From 0 (1.0 : Float) := by decide +kernel
    exact below_div hpercent hone (by decide) (by decide)

theorem below_weighted {weight part : Float} (hweight : Below 0 weight) {k : Int}
    (hpart : Below k part) (hk : 0 ≤ k ∧ k ≤ 100) : Below (0 + k + 1) (weight * part) :=
  below_mul hweight hpart (by omega) (by omega)

theorem isNaN_score {benchmarks : BenchmarkCache Float}
    (hc : ∀ b ∈ benchmarks.toList, ¬ b.mbps.isNaN) {full : Float} {m : Nat × Performance Float}
    (hrate : Below 76 m.2.successRate) (hshare : Below 97 (100.0 * m.2.speed / full)) :
    (score benchmarks full m).isNaN = true ↔ benchmarks.HasNoShare m.1 := by
  have hhalf : Below 0 (0.40 : Float) ∧ Below 0 (0.45 : Float) ∧ Below 0 (0.35 : Float) ∧
    Below 0 (0.25 : Float) ∧ Below 0 (0.55 : Float) ∧ From (-2) (0.35 : Float) := by decide +kernel
  obtain ⟨hrate40, hrate45, hspeed35, hspeed25, hspeed55, hbenchmark⟩ := hhalf
  rw [score]
  split
  · rename_i benchmark hb
    have hsame : (0.40 * m.2.successRate + 0.35 * benchmark +
        0.25 * (100.0 * m.2.speed / full)).isNaN = benchmark.isNaN := by
      rw [isNaN_add_right _ (below_weighted hspeed25 hshare (by decide)),
        isNaN_add (below_weighted hrate40 hrate (by decide)), isNaN_mul hspeed35 hbenchmark]
    rw [← BenchmarkCache.isNaN_normalized hc hb, ← hsame]
  · rename_i hnone
    have hmissing : ¬ benchmarks.HasNoShare m.1 := by
      rintro ⟨_, b, hb, _⟩
      rw [BenchmarkCache.normalized?, hb] at hnone
      cases hnone
    apply iff_of_false _ hmissing
    have hrate := below_weighted hrate45 hrate (by decide)
    split
    · rw [isNaN_add hrate, isNaN_of_below (below_weighted hspeed55 hshare (by decide))]
      exact nofun
    · rw [isNaN_add hrate, isNaN_of_below (below_weighted hspeed35 hshare (by decide))]
      exact nofun

theorem inOrder_ranking_iff (p : Policy) {models : List (Nat × Performance Float)}
    (hmodels : (models.map (·.1)).Nodup)
    (hmeasured : ∀ m ∈ models, m.2.tally.successes ≤ Counter.max ∧ Below 88 m.2.speed)
    {benchmarks : BenchmarkCache Float} (hc : ∀ b ∈ benchmarks.toList, ¬ b.mbps.isNaN) :
    (∃ ranked, p.ranking models benchmarks = some ranked ∧ InOrder ranked) ↔
      ¬ ∃ s ∈ p.scored models benchmarks, benchmarks.HasNoShare s.provider := by
  have hknown : ∀ m ∈ p.eligible models,
      m.2.tally.successes ≤ Counter.max ∧ Below 88 m.2.speed := by
    intro m hm
    exact hmeasured m ((List.mem_filter.1 (List.mem_mergeSort.1 hm)).1)
  have hscore : ∀ m ∈ p.eligible models,
      (score benchmarks (fullSpeed (p.eligible models)) m).isNaN = true ↔
        benchmarks.HasNoShare m.1 := by
    intro m hm
    exact isNaN_score hc (m.2.tally.below_successRate (hknown m hm).1)
      (below_share (fun m hm => (hknown m hm).2) hm)
  constructor
  · rintro ⟨ranked, hranked, hordered⟩ ⟨s, hs, hshare⟩
    obtain ⟨m, hm, rfl⟩ := (p.mem_scored_iff models benchmarks s).1 hs
    have hnan := hordered.numbers _ ((mem_ranking_iff hranked _).2 hs)
    rw [(hscore m hm).2 hshare] at hnan
    cases hnan
  · intro hshares
    have hnumbers : ∀ s ∈ p.scored models benchmarks, s.IsNumber := by
      intro s hs hnan
      obtain ⟨m, hm, rfl⟩ := (p.mem_scored_iff models benchmarks s).1 hs
      exact hshares ⟨_, hs, (hscore m hm).1 hnan⟩
    have hrankable : Rankable (p.scored models benchmarks) := .inr (.inl fun s hs =>
      (le_iff_key (hnumbers s hs) (hnumbers s hs)).2 (le_refl _))
    refine ⟨_, ranking_eq_some_iff.2 ⟨hrankable, rfl⟩, inOrder_insertAll hnumbers ?_⟩
    exact List.pairwise_map.2 (p.eligible_ascending hmodels)

end Policy

namespace Engine

theorem inOrder_ranking_iff {e : Engine} (he : e.Measured)
    (hc : ∀ b ∈ e.benchmarks.toList, ¬ b.mbps.isNaN) (job : String) (total : Nat) :
    (∃ ranked, e.ranking job total = some ranked ∧ InOrder ranked) ↔
      ¬ ∃ provider, e.WellKnown job total provider ∧ e.benchmarks.HasNoShare provider := by
  have hmeasured : ∀ m ∈ e.performances job,
      m.2.tally.successes ≤ Counter.max ∧ Below 88 m.2.speed := by
    rintro ⟨provider, known⟩ hmem
    obtain ⟨m, hm, rfl⟩ := (e.mem_performances_iff job provider known).1 hmem
    exact ⟨(he _ m hm).successes, (he _ m hm).speed⟩
  rw [ranking_eq, Policy.inOrder_ranking_iff _ (e.providers_nodup job) hmeasured hc]
  simp only [← mem_providers_scored_iff, List.mem_map]
  apply not_congr
  constructor
  · rintro ⟨s, hs, hshare⟩
    exact ⟨s.provider, ⟨s, hs, rfl⟩, hshare⟩
  · rintro ⟨_, ⟨s, hs, rfl⟩, hshare⟩
    exact ⟨s, hs, hshare⟩

end Engine

end ProviderScout
