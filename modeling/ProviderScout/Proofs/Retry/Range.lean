import ProviderScout.Proofs.Config.RoundTrip
import ProviderScout.Proofs.Retry.Attempts

namespace ProviderScout

namespace RetryPolicy

variable {p : RetryPolicy}

/-- While an operation fails and chance doubles each delay, every product is needed. -/
theorem isSome_of_answered {α : Type} {left n : ℕ} {d : Duration}
    (h : ∃ a, (p.attemptsFrom (fun _ => refused α) (fun _ => 1.0) left n d).ending = .answered a)
    (hd : p.delay? n = some d) {k : ℕ} (hnk : n ≤ k) (hk : k < n + left) :
    ∃ d, p.delay? k = some d ∧ (d.times? p.multiplier).isSome ∧
      (p.jitter → (d.times? 2.0).isSome) := by
  induction left generalizing n d with
  | zero => omega
  | succ left ih =>
    rw [attemptsFrom_again (not_isSettled_refused α)] at h
    cases hwait : p.wait? 1.0 d with
    | none =>
      rw [hwait] at h
      obtain ⟨a, ha⟩ := h
      cases ha
    | some w =>
      rw [hwait] at h
      cases hnext : p.next? d with
      | none =>
        rw [hnext] at h
        obtain ⟨a, ha⟩ := h
        cases ha
      | some next =>
        rw [hnext] at h
        rcases hnk.eq_or_lt with rfl | hlt
        · refine ⟨d, hd, ?_, ?_⟩
          · obtain ⟨product, hproduct, -⟩ := Option.map_eq_some_iff.1 hnext
            exact Option.isSome_iff_exists.2 ⟨product, hproduct⟩
          · intro hj
            have htwo : (1.0 + 1.0 : Float) = 2.0 := by decide +kernel
            rw [wait?, if_pos hj, htwo] at hwait
            exact Option.isSome_iff_exists.2 ⟨w, hwait⟩
        · exact ih h ((delay?_succ hd).trans hnext) hlt (by omega)

/-- An answer is always reached just if all products are lengths of time. -/
theorem answers_iff_isRepresentable (α : Type) (p : RetryPolicy) :
    (∀ (outcome : ℕ → Except Error α) (draw : ℕ → Float), (∀ i, 0.0 ≤ draw i ∧ draw i ≤ 1.0) →
      ∃ a, (p.attempts outcome draw).ending = .answered a) ↔ p.IsRepresentable := by
  constructor
  · intro h n hn
    have hone : ∀ i : ℕ, (0.0 : Float) ≤ 1.0 ∧ (1.0 : Float) ≤ 1.0 := fun _ => by decide +kernel
    exact isSome_of_answered (h (fun _ => refused α) (fun _ => 1.0) hone) rfl (Nat.zero_le n)
      (by omega)
  · intro hp outcome draw hdraw
    exact ⟨_, (follows_attemptsFrom hp hdraw (Nat.zero_add _) rfl).ending⟩

theorem times?_zero {x : Float} (hx : x.isFinite = true) : Duration.zero.times? x = some .zero := by
  have hzero : exactValue? Duration.zero.toFloat = some 0 := by decide +kernel
  obtain ⟨b, hb⟩ := Double.isFinite_iff.1 hx
  have hround : roundHalfEven (0 * 1000000000) = 0 := by decide +kernel
  rw [Duration.times?, Duration.ofFloat?_of_nonneg (Double.exactValue?_zero_mul hzero hb) (le_refl 0),
    hround]
  rfl

theorem delay?_of_zero (hzero : p.initialDelay = .zero) (hx : p.multiplier.isFinite = true)
    (n : ℕ) : p.delay? n = some .zero := by
  induction n with
  | zero => exact congrArg some hzero
  | succ n ih =>
    have hproduct : p.next? .zero = some (Duration.zero.min p.maxDelay) :=
      congrArg (Option.map _) (times?_zero hx)
    have hmin : Duration.zero.min p.maxDelay = .zero := if_pos (Nat.zero_le _)
    rw [delay?_succ ih, hproduct, hmin]

theorem isSome_times?_iff {d : Duration} {x : Float} :
    (d.times? x).isSome ↔
      0.0 ≤ d.toFloat * x ∧ d.toFloat * x < 18446744073709551616.0 :=
  Duration.isSome_ofFloat?_iff _

theorem isSome_times?_of_lt {d : Duration} {x : Float} (hx : x.isFinite = true) (hpos : 0.0 ≤ x)
    (hlt : d.toFloat * x < 18446744073709551616.0) : (d.times? x).isSome := by
  obtain ⟨q, hq, hnonneg⟩ := d.exists_value
  obtain ⟨b, hb⟩ := Double.isFinite_iff.1 hx
  have hb' : 0 ≤ b := (Double.le_iff_of_exactValue? Double.exactValue?_zero hb).1 hpos
  exact isSome_times?_iff.2 ⟨Double.zero_le_mul hq hb hnonneg hb', hlt⟩

theorem exists_delay? (hx : p.multiplier.isFinite = true) (hpos : 0.0 ≤ p.multiplier) {max : ℕ}
    (hrange : ∀ n < max, ∀ d, p.delay? n = some d →
      d.toFloat * p.multiplier < 18446744073709551616.0) {n : ℕ} (hn : n ≤ max) :
    ∃ d, p.delay? n = some d := by
  induction n with
  | zero => exact ⟨_, rfl⟩
  | succ n ih =>
    obtain ⟨d, hd⟩ := ih (Nat.le_of_succ_le hn)
    obtain ⟨product, hproduct⟩ :=
      Option.isSome_iff_exists.1 (isSome_times?_of_lt hx hpos (hrange n hn d hd))
    exact ⟨_, (delay?_succ hd).trans (congrArg (Option.map _) hproduct)⟩

/-- The products of a policy whose first delay is nothing, or a second and more. -/
theorem isRepresentable_iff (hx : p.multiplier.isFinite = true)
    (hinitial : p.initialDelay = .zero ∨ Duration.perSecond ≤ p.initialDelay.nanos) :
    p.IsRepresentable ↔ p.maxAttempts.toNat = 0 ∨ p.initialDelay = .zero ∨
      (0.0 ≤ p.multiplier ∧ ∀ n < p.maxAttempts.toNat, ∀ d, p.delay? n = some d →
        d.toFloat * p.multiplier < 18446744073709551616.0 ∧
          (p.jitter → d.toFloat * 2.0 < 18446744073709551616.0)) := by
  constructor
  · intro hp
    rcases Nat.eq_zero_or_pos p.maxAttempts.toNat with hmax | hmax
    · exact .inl hmax
    rcases hinitial with hzero | hsecond
    · exact .inr (.inl hzero)
    refine .inr (.inr ⟨?_, ?_⟩)
    · obtain ⟨d, hd, hproduct, -⟩ := hp 0 hmax
      obtain rfl : p.initialDelay = d := Option.some.inj hd
      obtain ⟨q, hq, -⟩ := p.initialDelay.exists_value
      obtain ⟨b, hb⟩ := Double.isFinite_iff.1 hx
      rw [Double.le_iff_of_exactValue? Double.exactValue?_zero hb]
      by_contra hneg
      exact Double.not_zero_le_mul hq hb (Duration.one_le_value hsecond hq) (not_le.1 hneg)
        (isSome_times?_iff.1 hproduct).1
    · intro n hn d hd
      obtain ⟨d', hd', hproduct, hdouble⟩ := hp n hn
      obtain rfl : d' = d := Option.some.inj (hd'.symm.trans hd)
      exact ⟨(isSome_times?_iff.1 hproduct).2, fun hj => (isSome_times?_iff.1 (hdouble hj)).2⟩
  · have htwo : (2.0 : Float).isFinite = true := by decide +kernel
    rintro (hmax | hzero | ⟨hpos, hrange⟩) n hn
    · omega
    · refine ⟨.zero, delay?_of_zero hzero hx n, ?_, fun _ => ?_⟩
      · rw [times?_zero hx]
        rfl
      · rw [times?_zero htwo]
        rfl
    · obtain ⟨d, hd⟩ := exists_delay? hx hpos (fun n hn d hd => (hrange n hn d hd).1) hn.le
      obtain ⟨hproduct, hdouble⟩ := hrange n hn d hd
      exact ⟨d, hd, isSome_times?_of_lt hx hpos hproduct,
        fun hj => isSome_times?_of_lt htwo (by decide +kernel) (hdouble hj)⟩

end RetryPolicy

theorem Duration.zero_or_second_of_inSeconds {d : Duration} (h : d.inSeconds = d) :
    d = .zero ∨ perSecond ≤ d.nanos := by
  have hnanos : d.seconds * perSecond = d.nanos := by
    rw [← d.toNat_seconds]
    exact congrArg nanos h
  rcases Nat.eq_zero_or_pos d.seconds with hzero | hpos
  · left
    rw [hzero, Nat.zero_mul] at hnanos
    obtain ⟨nanos, hrange⟩ := d
    subst hnanos
    rfl
  · right
    rw [← hnanos]
    exact Nat.le_mul_of_pos_left perSecond hpos

namespace Config

/-- With settings that were read, loading at the start always comes to an answer just if it is never
tried again, the delay is nothing and stays so, or no product is negative or reaches 2^64 seconds. -/
theorem startup_answers_iff {v : Json} (hv : v.isProper = true) {c : Config}
    (h : ofJson? v = some c) (α : Type) :
    let p := c.persistence.startupRetry
    (∀ (outcome : ℕ → Except Error α) (draw : ℕ → Float), (∀ i, 0.0 ≤ draw i ∧ draw i ≤ 1.0) →
      ∃ a, (p.attempts outcome draw).ending = .answered a) ↔
      p.maxAttempts.toNat = 0 ∨ p.initialDelay = .zero ∨
      (0.0 ≤ p.multiplier ∧ ∀ n < p.maxAttempts.toNat, ∀ d, p.delay? n = some d →
        d.toFloat * p.multiplier < 18446744073709551616.0 ∧
          (p.jitter → d.toFloat * 2.0 < 18446744073709551616.0)) := by
  intro p
  obtain ⟨hwritable, hseconds⟩ := of_ofJson? hv h
  have hinitial : p.initialDelay.inSeconds = p.initialDelay :=
    congrArg (fun c : Config => c.persistence.startupRetry.initialDelay) hseconds
  rw [RetryPolicy.answers_iff_isRepresentable]
  exact RetryPolicy.isRepresentable_iff hwritable.multiplier
    (Duration.zero_or_second_of_inSeconds hinitial)

def growing (x : Float) : Json :=
  .object [("persistence", .object [("startup_retry", .object [
    ("max_attempts", .int 3), ("backoff_multiplier", .float x)])])]

/-- Delays of one second, a second and a half, and two and a quarter. -/
theorem startup_answers_iff_of_slow_growth :
    let v := growing 1.5
    v.isProper = true ∧ ∃ c, ofJson? v = some c ∧
      c.persistence.startupRetry.delay? 2 = some (.ofMillis 2250) ∧
      ∀ (outcome : ℕ → Except Error ℕ) (draw : ℕ → Float), (∀ i, 0.0 ≤ draw i ∧ draw i ≤ 1.0) →
        ∃ a, (c.persistence.startupRetry.attempts outcome draw).ending = .answered a := by
  intro v
  have hproper : v.isProper = true := by decide +kernel
  have hread : (ofJson? v).map (fun c =>
      let p := c.persistence.startupRetry
      (p.maxAttempts, p.initialDelay, p.maxDelay, p.multiplier, p.jitter)) =
        some (3, .ofSeconds 1, .ofSeconds 60, 1.5, true) := by decide +kernel
  obtain ⟨c, hc, heq⟩ := Option.map_eq_some_iff.1 hread
  have hp : c.persistence.startupRetry = ⟨3, .ofSeconds 1, .ofSeconds 60, 1.5, true⟩ :=
    congrArg (fun p => RetryPolicy.mk p.1 p.2.1 p.2.2.1 p.2.2.2.1 p.2.2.2.2) heq
  refine ⟨hproper, c, hc, ?_, ?_⟩
  · rw [hp]
    decide +kernel
  · apply (startup_answers_iff hproper hc ℕ).2
    rw [hp]
    refine .inr (.inr ⟨by decide +kernel, ?_⟩)
    intro n hn d hd
    have hall : ∀ n < 3, (RetryPolicy.delay? ⟨3, .ofSeconds 1, .ofSeconds 60, 1.5, true⟩ n).all
        fun d => d.toFloat * 1.5 < 18446744073709551616.0 ∧
          d.toFloat * 2.0 < 18446744073709551616.0 := by decide +kernel
    have hless := of_decide_eq_true ((Option.all_eq_true _ _).1 (hall n hn) d hd)
    exact ⟨hless.1, fun _ => hless.2⟩

/-- A delay of a second is multiplied by 1e300 before it is cut down to a minute. -/
theorem no_answer_for_huge_multiplier :
    let v := growing 1e300
    let outcome (n : ℕ) : Except Error ℕ := if n = 0 then refused ℕ else .ok 7
    v.isProper = true ∧ ∃ c, ofJson? v = some c ∧ c.validate = .ok () ∧
      ∀ a, (c.persistence.startupRetry.attempts outcome fun _ => 0.0).ending ≠ .answered a := by
  intro v outcome
  have hread : (ofJson? v).map (fun c => (c.fault?.isNone,
      (c.persistence.startupRetry.attempts outcome fun _ => 0.0).ending matches .badDelay)) =
        some (true, true) := by decide +kernel
  obtain ⟨c, hc, heq⟩ := Option.map_eq_some_iff.1 hread
  obtain ⟨hvalid, hbad⟩ := Prod.mk.inj heq
  refine ⟨by decide +kernel, c, hc, ?_, ?_⟩
  · exact (validate_iff_fault? c).2 (Option.isNone_iff_eq_none.1 hvalid)
  · intro a ha
    rw [ha] at hbad
    cases hbad

end Config

end ProviderScout
