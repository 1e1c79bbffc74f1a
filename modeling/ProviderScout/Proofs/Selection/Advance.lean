import ProviderScout.Proofs.Engine.Frames
import ProviderScout.Proofs.Engine.Restarts
import ProviderScout.Proofs.Selection.Preference
import ProviderScout.Proofs.Store.Fates

namespace ProviderScout

namespace Tally

/-- What is left of totals at a limit may pass the limit once more on the way. -/
theorem upTo_le_trans {limit : Nat} {a b c : Tally} (hab : a.upTo limit ≤ b)
    (hbc : b.upTo limit ≤ c) : a.upTo limit ≤ c := by
  have h := upTo_le_upTo limit hab
  rw [upTo_upTo (Nat.le_refl limit)] at h
  exact le_trans h hbc

theorem upTo_le_add (a b : Tally) : a.upTo Counter.max ≤ a.add b :=
  upTo_le_upTo Counter.max (le_plus a b)

theorem successes_le_samples {t : Tally} {n : Nat} (hn : n ≤ Counter.max) (h : n ≤ t.successes) :
    n ≤ t.samples :=
  Nat.le_min.2 ⟨Nat.le_add_right_of_le h, hn⟩

theorem samples_mono {a b : Tally} (h : a.upTo Counter.max ≤ b) : a.samples ≤ b.samples := by
  obtain ⟨hsuccesses, hfailures, _⟩ := h
  have hsuccesses : min a.successes Counter.max ≤ b.successes := hsuccesses
  have hfailures : min a.failures Counter.max ≤ b.failures := hfailures
  change min (a.successes + a.failures) Counter.max ≤ min (b.successes + b.failures) Counter.max
  omega

end Tally

namespace Engine

/-- One engine knows at least what another one does: the policy is the same, no model is lost, and
no total gets smaller, as far as a counter holds it. -/
structure Grows (e e' : Engine) : Prop where
  config : e'.config = e.config
  roles : e'.roles = e.roles
  models : ∀ k m, e.model? k = some m →
    ∃ m', e'.model? k = some m' ∧ m.tally.upTo Counter.max ≤ m'.tally

theorem Grows.refl (e : Engine) : e.Grows e where
  config := rfl
  roles := rfl
  models _ m hm := ⟨m, hm, m.tally.upTo_le Counter.max⟩

theorem Grows.trans {e e' e'' : Engine} (h : e.Grows e') (h' : e'.Grows e'') : e.Grows e'' where
  config := h'.config.trans h.config
  roles := h'.roles.trans h.roles
  models := by
    intro k m hm
    obtain ⟨m', hm', hle⟩ := h.models k m hm
    obtain ⟨m'', hm'', hle'⟩ := h'.models k m' hm'
    exact ⟨m'', hm'', Tally.upTo_le_trans hle hle'⟩

theorem Grows.of_map {e e' : Engine} (hframe : e.Frames e') {f : ModelKey → Model Float → Model Float}
    (hmodel : ∀ k, e'.model? k = (e.model? k).map (f k)) (hf : ∀ k m, (f k m).tally = m.tally) :
    e.Grows e' := by
  obtain ⟨models, loaded, rfl⟩ := hframe
  refine ⟨rfl, rfl, ?_⟩
  intro k m hm
  refine ⟨f k m, by rw [hmodel, hm, Option.map_some], ?_⟩
  rw [hf]
  exact m.tally.upTo_le Counter.max

theorem Grows.of_key {e e' : Engine} (hframe : e.Frames e') {key : ModelKey} {m' : Model Float}
    (hmodel : ∀ k, e'.model? k = if k = key then some m' else e.model? k)
    (hadd : ∀ m, e.model? key = some m → ∃ t, m'.tally = m.tally.add t) : e.Grows e' := by
  obtain ⟨models, loaded, rfl⟩ := hframe
  refine ⟨rfl, rfl, ?_⟩
  intro k m hm
  rw [hmodel]
  split
  · rename_i hk
    obtain ⟨t, ht⟩ := hadd m (hk ▸ hm)
    exact ⟨m', rfl, ht ▸ m.tally.upTo_le_add t⟩
  · exact ⟨m, hm, m.tally.upTo_le Counter.max⟩

theorem grows_record (e : Engine) (key : ModelKey) {f : Model Float → Model Float}
    (hf : ∀ m, ∃ t, (f m).tally = m.tally.add t) :
    e.Grows (if e.isActive key.job then e.update key f else e) := by
  split
  · apply Grows.of_key ⟨_, _, rfl⟩ (e.model?_update key · f)
    intro m hm
    rw [hm]
    exact hf m
  · exact .refl e

theorem grows_absorb (e : Engine) (r : StatsRow) : e.Grows (e.absorb r) := by
  have hmodel := e.model?_absorb r
  have hframe : e.Frames (e.absorb r) := by
    obtain ⟨models, h⟩ := absorbs_eq [r] e
    exact ⟨models, e.loaded, h⟩
  cases ho : r.owner? with
  | none =>
    apply Grows.of_map hframe (f := fun _ m => m)
    · intro k
      rw [hmodel, ho, if_neg nofun, Option.map_id']
    · exact fun _ _ => rfl
  | some key =>
    have hkey (k : ModelKey) : (e.absorb r).model? k =
        if k = key then some (Model.absorb r (e.model? key)) else e.model? k := by
      rw [hmodel, ho]
      by_cases hk : k = key
      · rw [hk, if_pos rfl, if_pos rfl]
      · rw [if_neg hk, if_neg fun h => hk (Option.some.inj h).symm]
    apply Grows.of_key hframe hkey
    intro m hm
    rw [hm]
    exact ⟨r.tally, rfl⟩

theorem grows_absorbs (rows : List StatsRow) (e : Engine) : e.Grows (rows.foldl absorb e) := by
  induction rows generalizing e with
  | nil => exact .refl e
  | cons r rest ih => exact (e.grows_absorb r).trans (ih (e.absorb r))

theorem grows_collect (e : Engine) (now : Instant) : e.Grows (e.collect now).2 := by
  apply Grows.of_map ⟨_, _, rfl⟩ (e.model?_collect now)
  intro _ m
  rw [Model.tally, m.saved_performance now true]

theorem grows_restore (e : Engine) (keys : List ModelKey) : e.Grows (e.restore keys) := by
  apply Grows.of_map ⟨_, _, rfl⟩ (f := fun k m => if k ∈ keys then m.markDirty else m)
  · exact e.model?_restore keys
  · intro k m
    split <;> rfl

variable {σ : Type} [ModelStore σ]

theorem grows_load (e : Engine) (s : σ) : e.Grows (e.load s).2.1 := by
  rcases e.load_engine_cases s with h | ⟨rows, h⟩ <;> rw [h]
  · exact .refl e
  · obtain ⟨hconfig, hroles, hmodels⟩ := grows_absorbs rows e
    exact ⟨hconfig, hroles, hmodels⟩

theorem grows_flush (e : Engine) (now : Instant) (s : σ) : e.Grows (e.flush now s).2.1 := by
  rcases e.flush_engine_cases now s with h | h | ⟨keys, h⟩ <;> rw [h]
  · exact .refl e
  · exact e.grows_collect now
  · exact (e.grows_collect now).trans (grows_restore _ keys)

theorem grows_persist (e : Engine) (now : Instant) (s : σ) : e.Grows (e.persist now s).2.1 := by
  rw [persist_eq]
  split
  · exact (e.grows_load s).trans (grows_flush _ now _)
  · exact e.grows_load s

theorem grows_refreshBenchmarks (e : Engine) (now : Instant) (s : σ) :
    e.Grows (e.refreshBenchmarks now s).2.1 := by
  rw [refreshBenchmarks]
  split
  · exact .refl e
  · obtain ⟨hconfig, hroles, hmodels⟩ := Grows.refl e
    exact ⟨hconfig, hroles, hmodels⟩

section Candidates

variable {e e' : Engine} {job : String} {total provider : Nat}

theorem Grows.policy_eq (h : e.Grows e') (total : Nat) : e'.policy total = e.policy total := by
  rw [policy, policy, h.config, h.roles]

theorem Grows.known (h : e.Grows e') (hjob : e.performances job ≠ []) :
    e'.performances job ≠ [] := by
  rw [Ne, performances_eq_nil_iff] at hjob ⊢
  intro hnone
  apply hjob
  intro provider
  rw [Option.eq_none_iff_forall_ne_some]
  intro m hm
  obtain ⟨m', hm', _⟩ := h.models _ m hm
  cases (hnone provider).symm.trans hm'

/-- What the settings ask for is a counter, so that a counter that stops does not stop too early. -/
theorem minSamples_le (e : Engine) : e.config.minSamples.toNat ≤ Counter.max :=
  Nat.le_of_lt_succ e.config.minSamples.toNat_lt

theorem Grows.wellKnown (h : e.Grows e') (hknown : e.WellKnown job total provider) :
    e'.WellKnown job total provider := by
  obtain ⟨hallows, m, hm, hle⟩ := hknown
  obtain ⟨m', hm', htally⟩ := h.models _ m hm
  rw [WellKnown, h.policy_eq, h.config]
  refine ⟨hallows, m', hm', ?_⟩
  exact Nat.le_trans (Nat.le_min.2 ⟨hle, e.minSamples_le⟩) htally.1

theorem Grows.unexplored (h : e.Grows e')
    (hprovider : provider ∈ (e'.policy total).unexplored (e'.performances job)) :
    provider ∈ (e.policy total).unexplored (e.performances job) := by
  rw [mem_unexplored_performances_iff] at hprovider ⊢
  obtain ⟨hallows, hfew⟩ := hprovider
  rw [h.policy_eq] at hallows
  rw [h.config] at hfew
  refine ⟨hallows, Nat.lt_of_le_of_lt ?_ hfew⟩
  cases hm : e.model? ⟨job, provider⟩ with
  | none =>
    rw [tally, hm]
    exact Nat.zero_le _
  | some m =>
    obtain ⟨m', hm', htally⟩ := h.models _ m hm
    rw [tally, tally, hm, hm']
    exact Tally.samples_mono htally

theorem not_mem_unexplored_of_wellKnown (h : e.WellKnown job total provider) :
    provider ∉ (e.policy total).unexplored (e.performances job) := by
  obtain ⟨_, m, hm, hle⟩ := h
  rw [mem_unexplored_performances_iff]
  rintro ⟨_, hfew⟩
  rw [tally, hm] at hfew
  exact Nat.not_lt_of_le (Tally.successes_le_samples e.minSamples_le hle) hfew

end Candidates

end Engine

namespace Session

variable {σ : Type} [ModelStore σ]

theorem grows_step (s : Session σ) {op : Operation} (hop : op.keeps = true) :
    s.engine.Grows (s.step op).2.engine := by
  cases op with
  | success key bytes millis =>
    exact s.engine.grows_record key fun m => ⟨.success bytes millis, rfl⟩
  | failure key => exact s.engine.grows_record key fun m => ⟨.failure, rfl⟩
  | load => exact s.engine.grows_load s.store
  | flush now => exact s.engine.grows_flush now s.store
  | persist now => exact s.engine.grows_persist now s.store
  | refresh now => exact s.engine.grows_refreshBenchmarks now s.store
  | reset job => cases hop
  | clearJob job => cases hop
  | clearAll => cases hop

theorem grows_run (s : Session σ) {ops : List Operation} (hops : ∀ op ∈ ops, op.keeps = true) :
    s.engine.Grows (s.run ops).2.engine :=
  run_induction (motive := fun _ t => s.engine.Grows t.engine) (.refl s.engine)
    fun _ t op hop h => h.trans (t.grows_step (hops op hop))

/-- From any state on, whatever is recorded, loaded and saved and whatever the storage answers, as
long as nothing is forgotten: providers that are to be ranked for a job stay so, a job that is known
stays known, and providers that are tried out for it were so before. No provider is to be ranked and
tried out at the same time. What a ranking holds are all that are to be ranked. -/
theorem candidates_advance (s : Session σ) {ops : List Operation}
    (hops : ∀ op ∈ ops, op.keeps = true) (job : String) (total : Nat) :
    let e := s.engine
    let e' := (s.run ops).2.engine
    (e.scored job total).map Scored.provider ⊆ (e'.scored job total).map Scored.provider ∧
      (e.performances job ≠ [] → e'.performances job ≠ []) ∧
      (e'.policy total).unexplored (e'.performances job) ⊆
        (e.policy total).unexplored (e.performances job) ∧
      (∀ provider ∈ (e.scored job total).map Scored.provider,
        provider ∉ (e.policy total).unexplored (e.performances job)) ∧
      ∀ (f : Engine) (ranked : List (Scored Float)), f.ranking job total = some ranked →
        (ranked.map Scored.provider).Perm ((f.scored job total).map Scored.provider) := by
  intro e e'
  have hgrows : e.Grows e' := s.grows_run hops
  refine ⟨?_, hgrows.known, ?_, ?_, fun f ranked => Engine.providers_ranking_perm⟩
  · intro provider
    rw [Engine.mem_providers_scored_iff, Engine.mem_providers_scored_iff]
    exact hgrows.wellKnown
  · intro provider hprovider
    exact hgrows.unexplored hprovider
  · intro provider hprovider
    exact Engine.not_mem_unexplored_of_wellKnown
      ((e.mem_providers_scored_iff job total provider).1 hprovider)

/-- A load fails and a later one adds counters that are nearly full. What was ranked stays so, and
who has failed often enough is not tried out any more. -/
theorem candidates_advance_of_full_counters :
    let config := { AffinityConfig.standard with minSamples := 2 }
    let row : StatsRow := ⟨"film", 1, 9223372036854775807, 9223372036854775807, 0, 0, 0, 0⟩
    let store : FatefulStore := ⟨(∅ : StatsTable).upsert row, [.failure [], .success, .failure [true]]⟩
    let recorded : List Operation :=
      [.success ⟨"film", 0⟩ 1000 10, .success ⟨"film", 0⟩ 1000 10, .success ⟨"film", 1⟩ 1000 10]
    let s := ((start config [.pooled, .pooled, .pooled] store).run recorded).2
    let ops : List Operation :=
      [.load, .persist ⟨1700000000, 0⟩, .failure ⟨"film", 2⟩, .failure ⟨"film", 2⟩,
        .success ⟨"film", 1⟩ 1000 10, .flush ⟨1700000060, 0⟩]
    let e := s.engine
    let e' := (s.run ops).2.engine
    (∀ op ∈ ops, op.keeps = true) ∧
      (e.policy 3).unexplored (e.performances "film") = [1, 2] ∧
      (e'.policy 3).unexplored (e'.performances "film") = [] ∧
      ∃ ranked ranked', e.ranking "film" 3 = some ranked ∧ e'.ranking "film" 3 = some ranked' ∧
        0 ∈ ranked.map Scored.provider ∧ 0 ∈ ranked'.map Scored.provider := by
  intro config row store recorded s ops e e'
  have hops : ∀ op ∈ ops, op.keeps = true := by decide
  have hscored : 0 ∈ (e.scored "film" 3).map Scored.provider := by
    have hsuccesses : (e.model? ⟨"film", 0⟩).map (·.tally.successes) = some 2 := by decide +kernel
    obtain ⟨m, hm, htwo⟩ := Option.map_eq_some_iff.1 hsuccesses
    rw [Engine.mem_providers_scored_iff]
    exact ⟨⟨by decide, .pooled, rfl, by decide⟩, m, hm, Nat.le_of_eq htwo.symm⟩
  obtain ⟨hstays, _, _, _, hsame⟩ := s.candidates_advance hops "film" 3
  obtain ⟨ranked, hranked⟩ : ∃ ranked, e.ranking "film" 3 = some ranked :=
    Engine.exists_ranking_of_length_le (by decide +kernel) 3
  obtain ⟨ranked', hranked'⟩ : ∃ ranked, e'.ranking "film" 3 = some ranked :=
    Engine.exists_ranking_of_length_le (by decide +kernel) 3
  exact ⟨hops, by decide +kernel, by decide +kernel, ranked, ranked', hranked, hranked',
    (hsame e ranked hranked).mem_iff.2 hscored,
    (hsame e' ranked' hranked').mem_iff.2 (hstays hscored)⟩

end Session

end ProviderScout
