import ProviderScout.Proofs.Engine.Refreshes
import ProviderScout.Proofs.Selection.Ranking

namespace ProviderScout.Refreshing

/-- The models of the engine are measured and its settings stay as they are. -/
structure Measures (config : AffinityConfig) (s : Refreshing) : Prop where
  models : s.engine.Measured
  config : s.engine.config = config

theorem Measures.step {config : AffinityConfig} (hconfig : IsWeight config.ewmaAlpha)
    {s : Refreshing} (h : s.Measures config) {a : Action}
    (ha : ∀ op, a = .operate op → op.IsCounted) : (s.step a).Measures config := by
  have ht := s.step_taken a
  generalize s.step a = t at ht
  cases ht with
  | operate op =>
    have halpha : IsWeight s.engine.config.ewmaAlpha := h.config ▸ hconfig
    exact ⟨s.measured_step h.models halpha (ha op rfl), (s.config_step op).trans h.config⟩
  | record _ | readError _ | read _ => exact ⟨h.models, h.config⟩
  | stay _ => exact h
  | take _ => exact ⟨fun key m hm => h.models key m hm, h.config⟩

theorem Measures.run {config : AffinityConfig} (hconfig : IsWeight config.ewmaAlpha)
    {s : Refreshing} (h : s.Measures config) {actions : List Action}
    (hactions : ∀ op, .operate op ∈ actions → op.IsCounted) : (s.run actions).Measures config := by
  apply List.foldlRecOn (motive := Measures config) actions _ h
  intro t ht a ha
  apply ht.step hconfig
  rintro op rfl
  exact hactions op ha

/-- The speeds that selection goes by were stored, so they are numbers. -/
theorem Sound.numbers {s : Refreshing} (h : s.Sound) :
    ∀ x ∈ s.engine.benchmarks.toList, ¬ x.mbps.isNaN = true := by
  intro x hx
  obtain ⟨k, now, _, _, hshown⟩ := h.shows
  rw [hshown] at hx
  obtain ⟨b, hb, hspeed⟩ := Database.exists_mem_of_mem_speedsOf (Database.mem_of_mem_ofList hx)
  rw [(Database.provider_of_speed? hspeed).2.2]
  exact h.rows.numbers b (List.mem_of_mem_take hb)

/-- The well known providers are ranked in order exactly if the benchmark of each has a share of the
fastest one, as all have that are finite. -/
theorem ranking_inOrder_iff {config : Config} (hconfig : config.validate = .ok ())
    (roles : List Role) {store : Remote Database}
    (hstore : BenchmarkTable.Sound store.store.benchmarks) {actions : List Action}
    (hactions : ∀ op, .operate op ∈ actions → op.IsCounted) (job : String) (total : Nat) :
    let e := ((start config.affinity roles store).run actions).engine
    (∃ ranked, e.ranking job total = some ranked ∧ InOrder ranked) ↔
      ¬ ∃ provider, e.WellKnown job total provider ∧ e.benchmarks.HasNoShare provider := by
  intro e
  have hmeasures : (start config.affinity roles store).Measures config.affinity :=
    ⟨Engine.measured_start config.affinity roles, rfl⟩
  have hmodels := (hmeasures.run (Config.isWeight_of_validate hconfig) hactions).models
  have hsound := (Sound.start config.affinity roles hstore).run actions
  exact Engine.inOrder_ranking_iff hmodels hsound.numbers job total

/-- A huge speed and a negative one leave a ranking in order. -/
theorem ranking_inOrder_iff_of_finite :
    let config := { Config.standard with affinity := { AffinityConfig.standard with minSamples := 1 } }
    let actions : List Action := [.record ⟨1, 1e300, true, false, none, 1700000000⟩,
      .record ⟨2, -5, true, false, none, 1700000000⟩, .read ⟨1700000005, 0⟩, .take 0,
      .operate (.success ⟨"a", 0⟩ 1000 10), .operate (.failure ⟨"a", 0⟩),
      .operate (.success ⟨"a", 1⟩ 1000 10), .operate (.success ⟨"a", 2⟩ 1000 10)]
    let e := ((start config.affinity [.pooled, .pooled, .pooled] ⟨.fresh, []⟩).run actions).engine
    config.validate = .ok () ∧ (∀ op, .operate op ∈ actions → op.IsCounted) ∧
      ∃ ranked, e.ranking "a" 3 = some ranked ∧ ranked.map (·.provider) = [1, 2, 0] ∧
        InOrder ranked := by
  intro config actions e
  have hconfig : config.validate = .ok () := by decide +kernel
  have hactions : ∀ op, .operate op ∈ actions → op.IsCounted := by
    intro op hop
    simp only [actions, List.mem_cons, List.not_mem_nil, reduceCtorEq, false_or, or_false,
      Action.operate.injEq] at hop
    rcases hop with rfl | rfl | rfl | rfl <;> decide
  have hstore : BenchmarkTable.Sound (Remote.mk Database.fresh []).store.benchmarks := ⟨rfl, nofun⟩
  have hfinite : e.benchmarks.fastest.isInf = false := by decide +kernel
  have horder := ranking_inOrder_iff hconfig [.pooled, .pooled, .pooled] hstore hactions "a" 3
  have hproviders : (e.ranking "a" 3).map (fun ranked => ranked.map (·.provider)) =
      some [1, 2, 0] := by
    rw [Engine.ranking_eq, Policy.ranking, Policy.scored,
      Policy.eligible_of_ascending _ (by decide +kernel)]
    decide +kernel
  have hshares : ¬ ∃ provider, e.WellKnown "a" 3 provider ∧ e.benchmarks.HasNoShare provider := by
    rintro ⟨_, _, hinf, _⟩
    exact Bool.false_ne_true (hfinite.symm.trans hinf)
  obtain ⟨ranked, hranked, hordered⟩ := horder.2 hshares
  rw [hranked] at hproviders
  exact ⟨hconfig, hactions, ranked, hranked, Option.some.inj hproviders, hordered⟩

/-- An infinite speed has no share of itself: its provider has no score, and the one with the best
score comes last. -/
theorem ranking_of_infinite_speed :
    let config := { Config.standard with affinity := { AffinityConfig.standard with minSamples := 1 } }
    let actions : List Action := [.record ⟨1, 1.0 / 0.0, true, false, none, 1700000000⟩,
      .read ⟨1700000005, 0⟩, .take 0,
      .operate (.success ⟨"a", 0⟩ 1000 10), .operate (.failure ⟨"a", 0⟩),
      .operate (.success ⟨"a", 1⟩ 1000 10), .operate (.success ⟨"a", 2⟩ 1000 10)]
    let e := ((start config.affinity [.pooled, .pooled, .pooled] ⟨.fresh, []⟩).run actions).engine
    config.validate = .ok () ∧ ∃ ranked, e.ranking "a" 3 = some ranked ∧
      ranked.map (fun s => (s.provider, s.score.isNaN)) =
        [(0, false), (1, true), (2, false)] ∧
      (∃ first ∈ ranked.head?, ∃ last ∈ ranked.getLast?, first.score < last.score) ∧
      ¬ InOrder ranked := by
  intro config actions e
  have hranked : ∃ ranked ∈ e.ranking "a" 3,
      ranked.map (fun s => (s.provider, s.score.isNaN)) =
        [(0, false), (1, true), (2, false)] ∧
      ∃ first ∈ ranked.head?, ∃ last ∈ ranked.getLast?, first.score < last.score := by
    have hascending : (e.performances "a").Pairwise fun a b => a.1 ≤ b.1 := by decide +kernel
    simp only [Engine.ranking_eq, Policy.ranking, Policy.scored,
      Policy.eligible_of_ascending _ hascending]
    decide +kernel
  obtain ⟨ranked, hranked, hshape, hworse⟩ := hranked
  refine ⟨by decide +kernel, ranked, hranked, hshape, hworse, ?_⟩
  intro h
  have hmem : (1, true) ∈ ranked.map fun s => (s.provider, s.score.isNaN) := by
    rw [hshape]
    decide
  obtain ⟨s, hs, hsame⟩ := List.mem_map.1 hmem
  have hnan : s.score.isNaN = true := congrArg Prod.snd hsame
  exact Bool.false_ne_true ((h.numbers s hs).symm.trans hnan)

end ProviderScout.Refreshing
