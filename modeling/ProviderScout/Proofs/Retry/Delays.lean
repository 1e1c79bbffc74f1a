import ProviderScout.Proofs.Time.Seconds
import ProviderScout.Retry.Attempts

namespace ProviderScout

namespace Duration

/-- The product of a length and a number, unless it is negative, no number or too long. -/
def times? (d : Duration) (x : Float) : Option Duration := ofFloat? (d.toFloat * x)

variable {d e : Duration} {x y : Float}

theorem times?_mono {a b : ℚ} (hx : exactValue? x = some a) (hy : exactValue? y = some b)
    (ha : 0 ≤ a) (hab : a ≤ b) (h : d.times? y = some e) :
    ∃ f, d.times? x = some f ∧ f.nanos ≤ e.nanos := by
  obtain ⟨q, hq, hnonneg⟩ := d.exists_value
  obtain ⟨r, hr, -, hlt, -⟩ := exists_of_ofFloat? h
  have hless : r < 2 ^ (1023 : ℤ) := by
    calc r < 2 ^ (64 : ℤ) := hlt
      _ ≤ 2 ^ (1023 : ℤ) := zpow_le_zpow_right₀ one_le_two (by decide)
  obtain ⟨r', hr', hnonneg', hle⟩ := Double.exactValue?_mul_mono hq hx hy hnonneg ha hab hr hless
  exact ofFloat?_mono hr' hr hnonneg' hle h

theorem exactValue?_two : exactValue? 2.0 = some 2 := by decide +kernel

theorem nanos_times? {a q : ℚ} (hq : exactValue? d.toFloat = some q) (hx : exactValue? x = some a)
    (ha : 0 ≤ a) (hsize : Double.IsSize (q * a)) (h : d.times? x = some e) :
    e.nanos = roundHalfEven (q * a * 1000000000) := by
  obtain ⟨r, hr, -, -, hnanos⟩ := exists_of_ofFloat? h
  obtain ⟨q', hq', hnonneg⟩ := d.exists_value
  obtain rfl : q' = q := Option.some.inj (hq'.symm.trans hq)
  rcases Double.exactValue?_mul_of_nonneg hq hx hnonneg ha with ⟨hlarge, -⟩ | ⟨r', hr', hnear⟩
  · rw [Double.exactValue?_of_infinity hlarge] at hr
    cases hr
  · obtain rfl : r' = r := Option.some.inj (hr'.symm.trans hr)
    rw [hnanos, hnear.eq_of_isSize hsize]

theorem nanos_times?_one (hd : d.nanos < finest) (h : d.times? 1.0 = some e) :
    e.nanos = d.nanos := by
  obtain ⟨q, hq, hnonneg⟩ := d.exists_value
  have hsize := Double.isSize_abs hq
  have herror := abs_value_sub_lt hd hq
  rw [abs_of_nonneg hnonneg] at hsize
  rw [nanos_times? hq Double.exactValue?_one zero_le_one (by rwa [mul_one]) h, mul_one]
  exact roundHalfEven_eq_of_abs_lt (by positivity) (herror.trans (by norm_num))

theorem nanos_times?_two (hd : d.nanos < finest) (h : d.times? 2.0 = some e) :
    e.nanos = 2 * d.nanos := by
  obtain ⟨q, hq, hnonneg⟩ := d.exists_value
  have hsize := Double.isSize_abs hq
  have herror := abs_value_sub_lt hd hq
  rw [abs_of_nonneg hnonneg] at hsize
  rw [nanos_times? hq exactValue?_two zero_le_two hsize.double h]
  apply roundHalfEven_eq_of_abs_lt (by positivity)
  have hdouble : q * 2 * 1000000000 - (2 * d.nanos : ℕ) = 2 * (q * 1000000000 - d.nanos) := by
    push_cast
    ring
  rw [hdouble, abs_mul, abs_two]
  linarith

end Duration

namespace RetryPolicy

open Duration (finest)

/-- The delays: the first one, and each time the product with the multiplier, up to the largest. -/
def delay? (p : RetryPolicy) : ℕ → Option Duration
  | 0 => some p.initialDelay
  | n + 1 => do
    let d ← p.delay? n
    let product ← d.times? p.multiplier
    return product.min p.maxDelay

/-- Whether every product is a length of time that a whole series of attempts may need. -/
def IsRepresentable (p : RetryPolicy) : Prop :=
  ∀ n < p.maxAttempts.toNat, ∃ d, p.delay? n = some d ∧ (d.times? p.multiplier).isSome ∧
    (p.jitter → (d.times? 2.0).isSome)

instance (p : RetryPolicy) : Decidable p.IsRepresentable :=
  decidable_of_iff
    (∀ n < p.maxAttempts.toNat, (p.delay? n).any fun d =>
      (d.times? p.multiplier).isSome && (!p.jitter || (d.times? 2.0).isSome)) <| by
    simp only [IsRepresentable, Option.any_eq_true, Bool.and_eq_true, Bool.or_eq_true,
      Bool.not_eq_true', ← Bool.not_eq_true, imp_iff_not_or]

/-- What a wait has to do with its delay. It is the delay, or between the delay and its double. -/
def Waits (p : RetryPolicy) (d w : Duration) : Prop :=
  if p.jitter then
    (∃ least most, d.times? 1.0 = some least ∧ d.times? 2.0 = some most ∧
      least.nanos ≤ w.nanos ∧ w.nanos ≤ most.nanos) ∧
    (d.nanos < finest → d.nanos ≤ w.nanos ∧ w.nanos ≤ 2 * d.nanos)
  else w = d

variable {p : RetryPolicy} {draw : Float} {d : Duration}

theorem delay?_succ {n : ℕ} (h : p.delay? n = some d) : p.delay? (n + 1) = p.next? d := by
  rw [delay?, h, next?, Option.map_eq_bind]
  rfl

theorem next?_le {e : Duration} (h : p.next? d = some e) : e.nanos ≤ p.maxDelay.nanos := by
  obtain ⟨product, -, rfl⟩ := Option.map_eq_some_iff.1 h
  rw [Duration.min]
  split
  · assumption
  · exact Nat.le_refl _

theorem exists_factor (hdraw : 0.0 ≤ draw ∧ draw ≤ 1.0) :
    ∃ b, exactValue? (1.0 + draw) = some b ∧ 1 ≤ b ∧ b ≤ 2 := by
  obtain ⟨a, ha, hnonneg, hle⟩ := Double.exists_of_between hdraw.1 hdraw.2 Double.exactValue?_one
  have hsum : 1 + a < 2 ^ (1023 : ℤ) := by
    calc 1 + a ≤ 2 := by linarith
      _ = 2 ^ (1 : ℤ) := (zpow_one 2).symm
      _ < 2 ^ (1023 : ℤ) := zpow_lt_zpow_right₀ one_lt_two (by decide)
  obtain ⟨b, hb, hnear⟩ :=
    Double.exactValue?_add Double.exactValue?_one ha zero_le_one hnonneg hsum
  have hsize := Double.isSize_one.double
  rw [one_mul] at hsize
  exact ⟨b, hb, hnear.ge_of_ge Double.isSize_one (by linarith), hnear.le_of_le hsize (by linarith)⟩

theorem exists_wait? (hdraw : 0.0 ≤ draw ∧ draw ≤ 1.0)
    (h : p.jitter → (d.times? 2.0).isSome) : ∃ w, p.wait? draw d = some w ∧ p.Waits d w := by
  by_cases hj : p.jitter
  · obtain ⟨most, hmost⟩ := Option.isSome_iff_exists.1 (h hj)
    obtain ⟨b, hb, hone, htwo⟩ := exists_factor hdraw
    obtain ⟨w, hw, hwmost⟩ :=
      Duration.times?_mono hb Duration.exactValue?_two (zero_le_one.trans hone) htwo hmost
    obtain ⟨least, hleast, hwleast⟩ :=
      Duration.times?_mono Double.exactValue?_one hb zero_le_one hone hw
    refine ⟨w, (if_pos hj).trans hw, (if_pos hj).mpr ⟨?_, ?_⟩⟩
    · exact ⟨least, most, hleast, hmost, hwleast, hwmost⟩
    · intro hd
      rw [Duration.nanos_times?_one hd hleast] at hwleast
      rw [Duration.nanos_times?_two hd hmost] at hwmost
      exact ⟨hwleast, hwmost⟩
  · exact ⟨d, if_neg hj, (if_neg hj).mpr rfl⟩

end RetryPolicy

end ProviderScout
