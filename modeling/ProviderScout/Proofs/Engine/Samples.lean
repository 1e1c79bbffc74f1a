import ProviderScout.Proofs.Engine.Attachment
import ProviderScout.Proofs.Engine.Restarts
import ProviderScout.Proofs.Selection.Preference

namespace ProviderScout

namespace Tally

/-- Whether a counter holds the number of segments, once successes and failures have each stopped at
the largest counter. -/
def SamplesFit (t : Tally) : Prop :=
  (t.upTo Counter.max).successes + (t.upTo Counter.max).failures ≤ Counter.max

instance (t : Tally) : Decidable t.SamplesFit := inferInstanceAs (Decidable (_ ≤ _))

end Tally

namespace PerformanceReport

variable (provider : Nat) {p : Performance Float}

theorem samples_ofPerformance_eq_iff :
    (ofPerformance provider p).samples = some p.tally.samples ↔
      p.tally.successes + p.tally.failures ≤ Counter.max := by
  change (if _ then some _ else none) = some (min _ _) ↔ _
  rw [Option.ite_none_right_eq_some, Option.some.injEq]
  exact and_iff_left_of_imp fun h => (Nat.min_eq_left h).symm

end PerformanceReport

namespace StatsRow

def shares (key : ModelKey) : List StatsRow → Tally
  | [] => .zero
  | r :: rest => if r.owner? = some key then r.tally.plus (shares key rest) else shares key rest

end StatsRow

namespace Engine

variable {e : Engine} {key : ModelKey} {t : Tally}

theorem tally_of_model {m : Model Float} (h : e.model? key = some m) : e.tally key = m.tally := by
  rw [tally, h, Option.elim_some]

theorem tally_record (htally : e.tally key = t.upTo Counter.max) (k : ModelKey)
    {f : Model Float → Model Float} {news : Tally} (hf : ∀ m, (f m).tally = m.tally.add news) :
    (if e.isActive k.job then e.update k f else e).tally key =
      (t.plus (if k = key ∧ (e.config.enabled && !key.job.isEmpty) = true then news
        else .zero)).upTo Counter.max := by
  by_cases hk : k = key ∧ (e.config.enabled && !key.job.isEmpty) = true
  · rw [if_pos hk]
    obtain ⟨rfl, hactive⟩ := hk
    have hadd : (e.update k f).tally k = ((e.tally k).plus news).upTo Counter.max := by
      rw [tally, model?_update, if_pos rfl, Option.elim_some, hf, Tally.add_eq_plus, tally]
      cases e.model? k <;> rfl
    rw [isActive, if_pos hactive, hadd, htally, Tally.upTo_plus]
  · rw [if_neg hk, Tally.plus_zero, ← htally]
    split
    · rename_i hactive
      have hother : key ≠ k := by
        rintro rfl
        exact hk ⟨rfl, hactive⟩
      rw [tally, model?_update, if_neg hother, tally]
    · rfl

theorem tally_absorbs (htally : e.tally key = t.upTo Counter.max) (rows : List StatsRow) :
    (rows.foldl absorb e).tally key = (t.plus (StatsRow.shares key rows)).upTo Counter.max := by
  induction rows generalizing e t with
  | nil => rw [StatsRow.shares, Tally.plus_zero]; exact htally
  | cons r rest ih =>
    rw [List.foldl_cons, StatsRow.shares]
    by_cases ho : r.owner? = some key
    · rw [if_pos ho, ← Tally.plus_assoc]
      apply ih
      rw [tally, model?_absorb, if_pos ho, Option.elim_some, Model.tally_absorb]
      exact (congrArg (fun a => (a.plus r.tally).upTo Counter.max) htally).trans
        (Tally.upTo_plus _ _ _)
    · rw [if_neg ho]
      apply ih
      rw [tally_eq, tally?_absorb ho, ← tally_eq]
      exact htally

theorem tally_forget (htally : e.tally key = t.upTo Counter.max) (job : Option String) :
    (e.forget job).tally key =
      (if Covers job key.job then .zero else t : Tally).upTo Counter.max := by
  rw [tally_eq, tally?_forget]
  split
  · rfl
  · rw [← tally_eq, htally]

variable {σ : Type} [ModelStore σ]

theorem tally_flush (e : Engine) (now : Instant) (s : σ) (key : ModelKey) :
    (e.flush now s).2.1.tally key = e.tally key := by
  have hcollect : (e.collect now).2.tally? key = e.tally? key := by
    rw [tally?, model?_collect, Option.map_map, tally?]
    congr 1
    funext m
    simp only [Function.comp, Model.tally, Model.saved_performance]
  simp only [tally_eq]
  rcases e.flush_engine_cases now s with h | h | ⟨keys, h⟩ <;> rw [h]
  · rw [hcollect]
  · rw [tally?_restore, hcollect]

theorem tally_reset (htally : e.tally key = t.upTo Counter.max) (job : Option String) (s : σ) :
    (e.reset job s).2.1.tally key =
      (if (e.reset job s).1.isOk && job.all (· == key.job) then .zero else t : Tally).upTo
        Counter.max := by
  rw [reset]
  split
  · exact htally
  · exact tally_forget htally job

theorem tally_refreshBenchmarks (e : Engine) (now : Instant) (s : σ) (key : ModelKey) :
    (e.refreshBenchmarks now s).2.1.tally key = e.tally key := by
  rw [refreshBenchmarks]
  split <;> rfl

end Engine

namespace Session

variable {σ : Type} [ModelStore σ]

def incoming (key : ModelKey) (s : Session σ) : Tally :=
  if s.engine.loaded then .zero
  else match (ModelStore.loadRows s.store).1 with
    | .ok rows => StatsRow.shares key rows
    | .error _ => .zero

def intake (key : ModelKey) (s : Session σ) (op : Operation) : Tally :=
  match op with
  | .load | .persist _ => s.incoming key
  | _ => (s.step op).1.outcome s.engine.config key

/-- The totals of a key after an operation, without a largest value, where `t` are those before. -/
def after (key : ModelKey) (s : Session σ) (t : Tally) (op : Operation) : Tally :=
  if (s.step op).1.resets key || op.clears key then .zero else t.plus (s.intake key op)

/-- All that was recorded for a key and loaded for it since it was last forgotten, where `t` was
so before. -/
def taken (key : ModelKey) : Session σ → Tally → List Operation → Tally
  | _, t, [] => t
  | s, t, op :: rest => taken key (s.step op).2 (s.after key t op) rest

section

variable {key : ModelKey} {s : Session σ} {t : Tally}

theorem tally_load (htally : s.engine.tally key = t.upTo Counter.max) :
    (s.engine.load s.store).2.1.tally key = (t.plus (s.incoming key)).upTo Counter.max := by
  rw [incoming, Engine.load]
  split
  · rw [Tally.plus_zero]
    exact htally
  · split <;> rename_i hs <;> rw [hs]
    · rw [Tally.plus_zero]
      exact htally
    · exact Engine.tally_absorbs htally _

theorem tally_persist (htally : s.engine.tally key = t.upTo Counter.max) (now : Instant) :
    (s.engine.persist now s.store).2.1.tally key =
      (t.plus (s.incoming key)).upTo Counter.max := by
  rw [Engine.persist_eq]
  split
  · rw [Engine.tally_flush, tally_load htally]
  · exact tally_load htally

theorem after_of_idle {op : Operation} (h : s.intake key op = .zero) :
    s.after key t op = if (s.step op).1.resets key || op.clears key then .zero else t := by
  rw [after, h, Tally.plus_zero]

theorem tally_step (htally : s.engine.tally key = t.upTo Counter.max) (op : Operation) :
    (s.step op).2.engine.tally key = (s.after key t op).upTo Counter.max := by
  cases op with
  | success k bytes millis => exact Engine.tally_record htally k fun _ => rfl
  | failure k => exact Engine.tally_record htally k fun _ => rfl
  | load => exact tally_load htally
  | flush now =>
    rw [after_of_idle rfl]
    exact (Engine.tally_flush s.engine now s.store key).trans htally
  | persist now => exact tally_persist htally now
  | reset job =>
    have hreset : ((s.step (.reset job)).1.resets key || (Operation.reset job).clears key) =
        ((s.engine.reset job s.store).1.isOk && job.all (· == key.job)) := Bool.or_false _
    rw [after_of_idle rfl, hreset]
    exact Engine.tally_reset htally job s.store
  | clearJob job =>
    have hclear : ((s.step (.clearJob job)).1.resets key || (Operation.clearJob job).clears key) =
        (some job).all (· == key.job) := Bool.beq_comm
    rw [after_of_idle rfl, hclear]
    exact Engine.tally_forget htally (some job)
  | clearAll => exact Engine.tally_forget htally none
  | refresh now =>
    rw [after_of_idle rfl]
    exact (Engine.tally_refreshBenchmarks s.engine now s.store key).trans htally

theorem tally_run (htally : s.engine.tally key = t.upTo Counter.max) (ops : List Operation) :
    (s.run ops).2.engine.tally key = (taken key s t ops).upTo Counter.max := by
  induction ops generalizing s t with
  | nil => exact htally
  | cons op rest ih =>
    rw [run_cons_snd, taken]
    exact ih (tally_step htally op)

end

/-- Whatever a storage answers and in whatever order, the sum of a report passes no counter, and is
the number of segments of the model, exactly if all that was taken in for it fits. -/
theorem samples_agree_iff (config : AffinityConfig) (roles : List Role) (store : σ)
    (ops : List Operation) (job : String) (r : PerformanceReport)
    (hr : r ∈ ((start config roles store).run ops).2.engine.jobReports job) :
    let first := start config roles store
    let key : ModelKey := ⟨job, r.provider⟩
    ∃ m, (first.run ops).2.engine.model? key = some m ∧
      (r.successes + r.failures ≤ Counter.max ↔ (taken key first .zero ops).SamplesFit) ∧
      (r.samples = some m.tally.samples ↔ (taken key first .zero ops).SamplesFit) ∧
      (r.samples = none ↔ ¬ (taken key first .zero ops).SamplesFit) := by
  intro first key
  obtain ⟨provider, m, hm, rfl⟩ := (Engine.mem_jobReports_iff _ job r).1 hr
  have htally : m.tally = (taken key first .zero ops).upTo Counter.max := by
    rw [← Engine.tally_of_model hm]
    exact tally_run rfl ops
  have hsum : m.tally.successes + m.tally.failures ≤ Counter.max ↔
      (taken key first .zero ops).SamplesFit := by
    rw [htally]
    rfl
  refine ⟨m, hm, hsum, ?_, ?_⟩
  · rw [← hsum]
    exact PerformanceReport.samples_ofPerformance_eq_iff provider
  · rw [← hsum, PerformanceReport.samples, Counter.sum?, ite_eq_right_iff]
    simp only [reduceCtorEq, imp_false]
    rfl

/-- A full row has room for a success. -/
theorem samples_agree_of_full_row :
    let key : ModelKey := ⟨"a", 0⟩
    let row : StatsRow := ⟨"a", 0, 9223372036854775807, 9223372036854775807, 0, 0, 0, 0⟩
    let first := start .standard [] (⟨[row], [], false⟩ : MemoryStore)
    let ops : List Operation := [.load, .success key 1000 10]
    ∃ r ∈ (first.run ops).2.engine.jobReports "a",
      r.samples = some ((first.run ops).2.engine.tally key).samples := by
  intro key row first ops
  obtain ⟨r, hr⟩ : ∃ r, (first.run ops).2.engine.jobReports "a" = [r] :=
    List.length_eq_one_iff.1 (by decide +kernel)
  have hmem : r ∈ (first.run ops).2.engine.jobReports "a" := by rw [hr]; exact .head _
  have hprovider : r.provider = 0 := by
    have h : ((first.run ops).2.engine.jobReports "a").map (·.provider) = [0] := by decide +kernel
    rw [hr] at h
    exact List.head_eq_of_cons_eq h
  obtain ⟨m, hm, -, hsamples⟩ := samples_agree_iff .standard [] _ ops "a" r hmem
  rw [hprovider] at hm hsamples
  refine ⟨r, hmem, ?_⟩
  rw [Engine.tally_of_model hm]
  exact hsamples.1.2 (by decide +kernel)

/-- With a success and a failure more, the report has no sum. -/
theorem samples_overflow_of_full_row :
    let key : ModelKey := ⟨"a", 0⟩
    let row : StatsRow := ⟨"a", 0, 9223372036854775807, 9223372036854775807, 0, 0, 0, 0⟩
    let first := start .standard [] (⟨[row], [], false⟩ : MemoryStore)
    let e := (first.run [.load, .success key 1000 10, .failure key]).2.engine
    (e.jobReports "a").map (fun r => (r.provider, r.successes, r.failures, r.samples)) =
        [(0, 9223372036854775808, 9223372036854775808, none)] ∧
      (e.model? key).map (fun m => m.tally.samples) = some 18446744073709551615 := by
  intro key row first e
  exact ⟨by decide +kernel, by decide +kernel⟩

end Session

end ProviderScout
