import ProviderScout.Proofs.Engine.Models

namespace ProviderScout

namespace Policy

variable {α : Type} [Quantity α]

/-- Whether the caller can use a provider and its role may be selected. -/
def Allows (p : Policy) (provider : Nat) : Prop :=
  provider < p.total ∧ ∃ role ∈ p.roles[provider]?, role ≠ .backupOnly

theorem isSelectable_iff (p : Policy) (provider : Nat) :
    p.isSelectable provider = true ↔ p.Allows provider := by
  have hrole (role : Role) : role.isSelectable = true ↔ role ≠ .backupOnly := by
    cases role <;> decide
  simp only [isSelectable, Allows, Bool.and_eq_true, decide_eq_true_eq, Option.any_eq_true_iff_get,
    Option.mem_def, ← hrole]
  apply and_congr_right
  intro _
  constructor
  · rintro ⟨hsome, h⟩
    exact ⟨_, Option.eq_some_of_isSome hsome, h⟩
  · rintro ⟨role, hget, h⟩
    simp only [hget, Option.isSome_some, Option.get_some, h, exists_const]

omit [Quantity α] in
theorem mem_unexplored_iff (p : Policy) (models : List (Nat × Performance α)) (provider : Nat) :
    provider ∈ p.unexplored models ↔
      p.Allows provider ∧ samplesOf models provider < p.minSamples := by
  simp only [unexplored, List.mem_filter, List.mem_range, Bool.and_eq_true, decide_eq_true_eq,
    isSelectable_iff]
  constructor
  · rintro ⟨_, h⟩
    exact h
  · rintro ⟨hallows, hfew⟩
    obtain ⟨htotal, role, hrole, _⟩ := hallows
    have hlength : provider < p.roles.length := (List.getElem?_eq_some_iff.1 hrole).1
    exact ⟨Nat.lt_min.2 ⟨htotal, hlength⟩, ⟨htotal, role, hrole, ‹_›⟩, hfew⟩

theorem insertReversed_perm (x : Scored α) (ranked : List (Scored α)) :
    (insertReversed x ranked).Perm (x :: ranked) := by
  induction ranked with
  | nil => exact .refl [x]
  | cons y rest ih =>
    rw [insertReversed]
    split
    · exact (ih.cons y).trans (.swap x y rest)
    · exact .refl (x :: y :: rest)

theorem mem_insertReversed_iff (x y : Scored α) (ranked : List (Scored α)) :
    y ∈ insertReversed x ranked ↔ y = x ∨ y ∈ ranked := by
  rw [(insertReversed_perm x ranked).mem_iff, List.mem_cons]

theorem insertAll_perm (scored : List (Scored α)) : (insertAll scored).Perm scored := by
  have hfold (ranked : List (Scored α)) :
      (scored.foldl (fun ranked x => insertReversed x ranked) ranked).Perm (scored ++ ranked) := by
    induction scored generalizing ranked with
    | nil => exact .refl ranked
    | cons x rest ih =>
      rw [List.foldl_cons]
      have hinsert := (insertReversed_perm x ranked).append_left rest
      exact (ih (insertReversed x ranked)).trans (hinsert.trans List.perm_middle)
  have hall := hfold []
  rw [List.append_nil] at hall
  exact (List.reverse_perm _).trans hall

theorem mem_insertAll_iff (y : Scored α) (scored : List (Scored α)) :
    y ∈ insertAll scored ↔ y ∈ scored :=
  (insertAll_perm scored).mem_iff

/-- Whether entries can be ranked: they are few, or their scores can be put in order. -/
def Rankable (scored : List (Scored α)) : Prop :=
  scored.length ≤ 20 ∨ (∀ a ∈ scored, a.score ≤ a.score) ∨
    ∀ a ∈ scored, ∀ b ∈ scored, ¬ a.score < b.score

theorem byScore_eq_some_iff {scored ranked : List (Scored α)} :
    byScore scored = some ranked ↔ Rankable scored ∧ insertAll scored = ranked := by
  have hrankable : (decide (scored.length ≤ maxInserted) || isComparable scored) = true ↔
      Rankable scored := by
    simp only [Rankable, isComparable, Bool.or_eq_true, decide_eq_true_eq, List.all_eq_true,
      Bool.not_eq_true', decide_eq_false_iff_not]
    rfl
  rw [byScore, Option.ite_none_right_eq_some, Option.some.injEq, hrankable]

theorem ranking_eq_some_iff {p : Policy} {models : List (Nat × Performance α)}
    {benchmarks : BenchmarkCache α} {ranked : List (Scored α)} :
    p.ranking models benchmarks = some ranked ↔
      Rankable (p.scored models benchmarks) ∧ insertAll (p.scored models benchmarks) = ranked :=
  byScore_eq_some_iff

theorem isSome_ranking_iff (p : Policy) (models : List (Nat × Performance α))
    (benchmarks : BenchmarkCache α) :
    (p.ranking models benchmarks).isSome = true ↔ Rankable (p.scored models benchmarks) := by
  simp only [Option.isSome_iff_exists, ranking_eq_some_iff, exists_and_left, exists_eq', and_true]

theorem mem_scored_iff (p : Policy) (models : List (Nat × Performance α))
    (benchmarks : BenchmarkCache α) (s : Scored α) :
    s ∈ p.scored models benchmarks ↔ ∃ m ∈ p.eligible models,
      ⟨m.1, score benchmarks (fullSpeed (p.eligible models)) m⟩ = s :=
  List.mem_map

theorem mem_ranking_iff {p : Policy} {models : List (Nat × Performance α)}
    {benchmarks : BenchmarkCache α} {ranked : List (Scored α)}
    (h : p.ranking models benchmarks = some ranked) (s : Scored α) :
    s ∈ ranked ↔ s ∈ p.scored models benchmarks := by
  rw [← (ranking_eq_some_iff.1 h).2, mem_insertAll_iff]

theorem exists_mem_scored_iff (p : Policy) (models : List (Nat × Performance α))
    (benchmarks : BenchmarkCache α) (provider : Nat) :
    (∃ s ∈ p.scored models benchmarks, s.provider = provider) ↔
      p.Allows provider ∧ ∃ known, (provider, known) ∈ models ∧
        p.minSamples ≤ known.tally.successes := by
  simp only [mem_scored_iff, eligible, List.mem_mergeSort, List.mem_filter, isEligible,
    Bool.and_eq_true, decide_eq_true_eq, isSelectable_iff]
  constructor
  · rintro ⟨s, ⟨m, ⟨hm, hallows, hsuccesses⟩, rfl⟩, rfl⟩
    exact ⟨hallows, m.2, hm, hsuccesses⟩
  · rintro ⟨hallows, known, hm, hsuccesses⟩
    exact ⟨_, ⟨(provider, known), ⟨hm, hallows, hsuccesses⟩, rfl⟩, rfl⟩

end Policy

namespace Engine

theorem mem_performances_iff (e : Engine) (job : String) (provider : Nat)
    (known : Performance Float) :
    (provider, known) ∈ e.performances job ↔
      ∃ m, e.model? ⟨job, provider⟩ = some m ∧ m.performance = known := by
  simp only [performances, List.mem_map, List.mem_filter, Prod.exists, Prod.mk.injEq, beq_iff_eq,
    SortedMap.mem_entries_iff]
  constructor
  · rintro ⟨k, m, ⟨hm, rfl⟩, rfl, rfl⟩
    exact ⟨m, hm, rfl⟩
  · rintro ⟨m, hm, rfl⟩
    exact ⟨_, m, ⟨hm, rfl⟩, rfl, rfl⟩

theorem performances_eq_nil_iff (e : Engine) (job : String) :
    e.performances job = [] ↔ ∀ provider, e.model? ⟨job, provider⟩ = none := by
  simp only [List.eq_nil_iff_forall_not_mem, Prod.forall, mem_performances_iff, not_exists, not_and,
    Option.eq_none_iff_forall_ne_some]
  constructor
  · intro h provider m hm
    exact h provider m.performance m hm rfl
  · intro h provider _ m hm _
    exact h provider m hm

theorem mem_jobReports_iff (e : Engine) (job : String) (r : PerformanceReport) :
    r ∈ e.jobReports job ↔ ∃ provider m, e.model? ⟨job, provider⟩ = some m ∧
      .ofPerformance provider m.performance = r := by
  simp only [jobReports, List.mem_map, Prod.exists, mem_performances_iff]
  constructor
  · rintro ⟨provider, _, ⟨m, hm, rfl⟩, rfl⟩
    exact ⟨provider, m, hm, rfl⟩
  · rintro ⟨provider, m, hm, rfl⟩
    exact ⟨provider, _, ⟨m, hm, rfl⟩, rfl⟩

theorem performances_ascending (e : Engine) (job : String) :
    (e.performances job).Pairwise fun a b => a.1 < b.1 := by
  rw [performances, List.pairwise_map]
  apply (e.models.ascending.filter _).imp_of_mem
  intro a b ha hb hlt
  have hjob : compareOn ModelKey.job a.1 b.1 = .eq := by
    rw [compareOn, beq_iff_eq.1 (List.mem_filter.1 ha).2, beq_iff_eq.1 (List.mem_filter.1 hb).2]
    exact Std.ReflOrd.compare_self
  have hprovider : compareOn ModelKey.provider a.1 b.1 = .lt := by
    change compareLex _ _ a.1 b.1 = .lt at hlt
    rwa [compareLex, hjob] at hlt
  exact Nat.compare_eq_lt.1 hprovider

theorem samplesOf_performances (e : Engine) (job : String) (provider : Nat) :
    Policy.samplesOf (e.performances job) provider = (e.tally ⟨job, provider⟩).samples := by
  rw [Policy.samplesOf]
  split
  · rename_i m hm
    have hprovider : m.1 = provider := beq_iff_eq.1 (List.find?_some hm :)
    have hmem : (provider, m.2) ∈ e.performances job := hprovider ▸ List.mem_of_find?_eq_some hm
    obtain ⟨v, hv, hperformance⟩ := (e.mem_performances_iff job provider m.2).1 hmem
    rw [tally, hv, ← hperformance]
    rfl
  · rename_i hnone
    have hmodel : e.model? ⟨job, provider⟩ = none := by
      rw [Option.eq_none_iff_forall_ne_some]
      intro m hm
      have hmem := (e.mem_performances_iff job provider _).2 ⟨m, hm, rfl⟩
      exact List.find?_eq_none.1 hnone _ hmem (beq_self_eq_true provider)
    rw [tally, hmodel]
    rfl

theorem ranking_eq (e : Engine) (job : String) (total : Nat) :
    e.ranking job total = (e.policy total).ranking (e.performances job) e.benchmarks := by
  rw [ranking]
  split
  · rename_i h
    rw [List.isEmpty_iff.1 h, Policy.ranking, Policy.scored, Policy.eligible, List.filter_nil,
      List.mergeSort_nil]
    rfl
  · rfl

/-- Whether a provider may be selected and has fewer samples for a job than the policy asks for. -/
def LittleKnown (e : Engine) (job : String) (total provider : Nat) : Prop :=
  (e.policy total).Allows provider ∧
    (e.tally ⟨job, provider⟩).samples < e.config.minSamples.toNat

theorem mem_unexplored_performances_iff (e : Engine) (job : String) (total provider : Nat) :
    provider ∈ (e.policy total).unexplored (e.performances job) ↔
      e.LittleKnown job total provider := by
  rw [Policy.mem_unexplored_iff, samplesOf_performances]
  rfl

/-- Whether a provider may be selected and has as many successes for a job as the policy asks for. -/
def WellKnown (e : Engine) (job : String) (total provider : Nat) : Prop :=
  (e.policy total).Allows provider ∧ ∃ m, e.model? ⟨job, provider⟩ = some m ∧
    e.config.minSamples.toNat ≤ m.tally.successes

def scored (e : Engine) (job : String) (total : Nat) : List (Scored Float) :=
  (e.policy total).scored (e.performances job) e.benchmarks

theorem isSome_ranking_iff (e : Engine) (job : String) (total : Nat) :
    (e.ranking job total).isSome = true ↔ Policy.Rankable (e.scored job total) := by
  rw [ranking_eq, Policy.isSome_ranking_iff, scored]

theorem exists_ranking_of_length_le {e : Engine} {job : String}
    (h : (e.performances job).length ≤ 20) (total : Nat) :
    ∃ ranked, e.ranking job total = some ranked := by
  have hlength : (e.scored job total).length ≤ (e.performances job).length := by
    rw [scored, Policy.scored, List.length_map, Policy.eligible, List.length_mergeSort]
    exact List.length_filter_le _ _
  rw [← Option.isSome_iff_exists, isSome_ranking_iff]
  exact .inl (Nat.le_trans hlength h)

theorem mem_providers_scored_iff (e : Engine) (job : String) (total provider : Nat) :
    provider ∈ (e.scored job total).map Scored.provider ↔ e.WellKnown job total provider := by
  rw [List.mem_map, scored, Policy.exists_mem_scored_iff, WellKnown]
  simp only [mem_performances_iff]
  apply and_congr_right
  intro _
  constructor
  · rintro ⟨_, ⟨m, hm, rfl⟩, hle⟩
    exact ⟨m, hm, hle⟩
  · rintro ⟨m, hm, hle⟩
    exact ⟨_, ⟨m, hm, rfl⟩, hle⟩

section Ranking

variable {e : Engine} {job : String} {total : Nat} {ranked : List (Scored Float)}

theorem providers_ranking_perm (h : e.ranking job total = some ranked) :
    (ranked.map Scored.provider).Perm ((e.scored job total).map Scored.provider) := by
  rw [ranking_eq] at h
  rw [← (Policy.ranking_eq_some_iff.1 h).2]
  exact (Policy.insertAll_perm _).map _

end Ranking

def best (e : Engine) (job : String) (total : Nat) (kind : UsageKind) : Option (Option Nat) :=
  (e.ranking job total).map fun ranked => Policy.choose ranked kind

end Engine

end ProviderScout
