import ProviderScout.Proofs.Config.Validation
import ProviderScout.Proofs.Engine.Projection
import ProviderScout.Proofs.Number.Double

namespace ProviderScout

open Double

def IsWeight (alpha : Float) : Prop := 0 < alpha ∧ alpha ≤ 1

theorem Config.isWeight_of_validate {c : Config} (h : c.validate = .ok ()) :
    IsWeight c.affinity.ewmaAlpha := ((validate_iff c).1 h).2.2.2

theorem Counter.add_le (a b : Nat) : Counter.add a b ≤ Counter.max := Nat.min_le_right _ _

theorem IsWeight.below {alpha : Float} (h : IsWeight alpha) : Below 1 alpha := by
  have hzero : (0 : Float) = 0.0 := by decide +kernel
  have hone : Below 1 (1 : Float) := by decide +kernel
  exact below_of_from_of_le (from_of_pos (hzero ▸ h.1)) hone h.2

theorem IsWeight.below_rest {alpha : Float} (h : IsWeight alpha) : Below 2 (1.0 - alpha) := by
  have hone : (1 : Float) = 1.0 := by decide +kernel
  have hmost : Below 1 (1.0 : Float) := by decide +kernel
  exact below_sub hmost h.below (hone ▸ h.2) (by decide) (by decide)

theorem Tally.below_successRate {t : Tally} (h : t.successes ≤ Counter.max) :
    Below 76 (t.successRate Float) := by
  rw [successRate]
  split
  · exact below_of_zero parts_zero
  · rename_i hpos
    have hcount : Below 75 (100.0 * Float.ofNat t.successes) :=
      below_mul (j := 7) (by decide +kernel) (below_ofCount h) (by decide) (by decide)
    exact below_div hcount (from_ofNat (Nat.pos_of_ne_zero hpos)) (by decide) (by decide)

namespace Model

/-- Whether what a model has measured is within bounds: its successes are a counter, and its speed
is a number that is not too large. -/
structure Measured (m : Model Float) : Prop where
  successes : m.tally.successes ≤ Counter.max
  speed : Below 88 m.performance.speed

theorem below_segmentSpeed {bytes millis : Nat} (hbytes : bytes ≤ Counter.max) :
    Below 79 (segmentSpeed bytes millis) := by
  rw [segmentSpeed]
  split
  · exact below_of_zero parts_zero
  · rename_i hpos
    have hcount : Below 78 (Float.ofNat bytes * 1000.0) :=
      below_mul (below_ofCount hbytes) (k := 10) (by decide +kernel) (by decide) (by decide)
    exact below_div hcount (from_ofNat (Nat.pos_of_ne_zero hpos)) (by decide) (by decide)

/-- A speed of which a new one is no outlier is not much larger than the new one. -/
theorem below_of_isPlausible {current new : Float} (hcurrent : Below 88 current)
    (hnew : Below 79 new) (h : isPlausible current new = true) : Below 83 current := by
  have hle : current * 0.1 ≤ new := of_decide_eq_true (Bool.and_eq_true_iff.1 h).1
  rcases below_or_from hcurrent 83 with hbelow | hfrom
  · exact hbelow
  · have htenth : From (-4) (0.1 : Float) := by decide +kernel
    have hfrom' : From (83 + -4) (current * 0.1) := from_mul hfrom htenth (by decide)
    exact absurd hle (not_le_of_from hfrom' hnew)

/-- Speeds stay bounded although each depends on the last one: a speed that counts is at least a
tenth of the speed it is mixed with. -/
theorem below_smooth {alpha current new : Float} (halpha : IsWeight alpha)
    (hcurrent : Below 88 current) (hnew : Below 79 new) : Below 88 (smooth alpha current new) := by
  rw [smooth]
  split
  · exact below_mono (by decide) hnew
  · split
    · rename_i hplausible
      have hcurrent' := below_of_isPlausible hcurrent hnew hplausible
      have htaken : Below 81 (alpha * new) := below_mul halpha.below hnew (by decide) (by decide)
      have hkept : Below 86 ((1.0 - alpha) * current) :=
        below_mul halpha.below_rest hcurrent' (by decide) (by decide)
      exact below_add htaken hkept (by decide) (by decide)
    · exact hcurrent

theorem measured_fresh : (fresh : Model Float).Measured :=
  ⟨Nat.zero_le _, below_of_zero parts_zero⟩

theorem Measured.recordSuccess {m : Model Float} (h : m.Measured) {alpha : Float}
    (halpha : IsWeight alpha) {bytes : Nat} (hbytes : bytes ≤ Counter.max) (millis : Nat) :
    (m.recordSuccess alpha bytes millis).Measured where
  successes := Counter.add_le _ _
  speed := below_smooth halpha h.speed (below_segmentSpeed hbytes)

theorem Measured.recordFailure {m : Model Float} (h : m.Measured) : m.recordFailure.Measured where
  successes := Counter.add_le _ _
  speed := h.speed

theorem Measured.absorb (r : StatsRow) {m? : Option (Model Float)} (h : ∀ m ∈ m?, m.Measured) :
    (absorb r m?).Measured := by
  have hcolumn (c : Column) : Counter.ofColumn c ≤ Counter.max :=
    Nat.le_trans (Counter.ofColumn_le c) (by decide)
  have hstored : Below 88 (Float.ofNat (Counter.ofColumn r.speed)) :=
    below_mono (by decide) (below_ofCount (hcolumn r.speed))
  cases m? with
  | none => exact ⟨hcolumn r.successes, hstored⟩
  | some m =>
    refine ⟨Counter.add_le m.tally.successes r.tally.successes, ?_⟩
    change Below 88 (if Quantity.isZero m.performance.speed then _ else m.performance.speed)
    split
    · exact hstored
    · exact (h m rfl).speed

theorem Measured.saved {m : Model Float} (h : m.Measured) (now : Instant) (ok : Bool) :
    (m.saved now ok).Measured := by
  have hsame := m.saved_performance now ok
  refine ⟨?_, hsame ▸ h.speed⟩
  rw [Model.tally, hsame]
  exact h.successes

end Model

namespace Engine

/-- Whether what all models of an engine have measured is within bounds. -/
def Measured (e : Engine) : Prop := ∀ k m, e.model? k = some m → m.Measured

theorem measured_start (config : AffinityConfig) (roles : List Role) :
    (start config roles).Measured := by
  intro k m hm
  cases hm

theorem Measured.record {e : Engine} (he : e.Measured) (key : ModelKey)
    {f : Model Float → Model Float} (hf : ∀ m, m.Measured → (f m).Measured) :
    (if e.isActive key.job then e.update key f else e).Measured := by
  split
  · intro k m hm
    rw [model?_update] at hm
    split at hm
    · cases hm
      apply hf
      cases hkey : e.model? key with
      | none => exact Model.measured_fresh
      | some m => exact he key m hkey
    · exact he k m hm
  · exact he

theorem Measured.forget {e : Engine} (he : e.Measured) (job : Option String) :
    (e.forget job).Measured := by
  intro k m hm
  rw [model?_forget] at hm
  split at hm
  · cases hm
  · exact he k m hm

theorem Measured.absorbs {e : Engine} (he : e.Measured) (rows : List StatsRow) :
    (rows.foldl absorb e).Measured := by
  induction rows generalizing e with
  | nil => exact he
  | cons r rest ih =>
    apply ih
    intro k m hm
    rw [model?_absorb] at hm
    split at hm
    · cases hm
      exact Model.Measured.absorb r (he k)
    · exact he k m hm

theorem Measured.collect {e : Engine} (he : e.Measured) (now : Instant) :
    (e.collect now).2.Measured := by
  intro k m hm
  rw [model?_collect] at hm
  obtain ⟨m', hm', rfl⟩ := Option.map_eq_some_iff.1 hm
  exact (he k m' hm').saved now true

theorem Measured.restore {e : Engine} (he : e.Measured) (keys : List ModelKey) :
    (e.restore keys).Measured := by
  intro k m hm
  rw [model?_restore] at hm
  obtain ⟨m', hm', rfl⟩ := Option.map_eq_some_iff.1 hm
  have hmeasured := he k m' hm'
  split
  · exact ⟨hmeasured.successes, hmeasured.speed⟩
  · exact hmeasured

variable {σ : Type} [ModelStore σ]

theorem Measured.load {e : Engine} (he : e.Measured) (s : σ) : (e.load s).2.1.Measured := by
  rcases e.load_engine_cases s with h | ⟨rows, h⟩ <;> rw [h]
  · exact he
  · exact he.absorbs rows

theorem Measured.flush {e : Engine} (he : e.Measured) (now : Instant) (s : σ) :
    (e.flush now s).2.1.Measured := by
  rcases e.flush_engine_cases now s with h | h | ⟨keys, h⟩ <;> rw [h]
  · exact he
  · exact he.collect now
  · exact (he.collect now).restore keys

end Engine

/-- Whether a counter holds the bytes that are recorded. -/
def Operation.IsCounted : Operation → Prop
  | .success _ bytes _ => bytes ≤ Counter.max
  | _ => True

instance (op : Operation) : Decidable op.IsCounted :=
  match op with
  | .success _ bytes _ => inferInstanceAs (Decidable (bytes ≤ Counter.max))
  | .failure _ | .load | .flush _ | .persist _ | .reset _ | .clearJob _ | .clearAll | .refresh _ =>
    .isTrue trivial

theorem Session.measured_step {σ : Type} [ModelStore σ] [LawfulModelStore σ] {s : Session σ}
    (hs : s.engine.Measured) (halpha : IsWeight s.engine.config.ewmaAlpha) {op : Operation}
    (hop : op.IsCounted) : (s.step op).2.engine.Measured := by
  cases op with
  | success key bytes millis =>
    exact hs.record key fun m hm => hm.recordSuccess halpha hop millis
  | failure key => exact hs.record key fun m hm => hm.recordFailure
  | load => exact hs.load s.store
  | flush now => exact hs.flush now s.store
  | persist now =>
    simp only [step, apply, ofCall, Engine.persist_eq]
    split
    · exact (hs.load s.store).flush now _
    · exact hs.load s.store
  | reset job =>
    rcases s.engine.reset_cases job s.store with ⟨_, he, _⟩ | ⟨_, he, _⟩
    · simp only [step, apply, ofCall, he]
      exact hs.forget job
    · simp only [step, apply, ofCall, he]
      exact hs
  | clearJob job => exact hs.forget (some job)
  | clearAll => exact hs.forget none
  | refresh now =>
    intro k m hm
    rw [Engine.model?] at hm
    simp only [step, apply, ofCall, (s.engine.refreshBenchmarks_models now s.store).1] at hm
    exact hs k m hm

end ProviderScout
