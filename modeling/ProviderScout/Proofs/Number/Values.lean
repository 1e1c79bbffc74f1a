import ProviderScout.Number.Rounding
import ProviderScout.Proofs.Number.Double
import ProviderScout.Proofs.Number.Nearest

namespace ProviderScout.Double

open Float.Model (Format UnpackedFloat totalExponent)
open Float.Model.UnpackedFloat

def factor : Sign → ℚ
  | .negative => -1
  | .positive => 1

theorem factor_mul (s s' : Sign) : factor (s * s') = factor s * factor s' := by
  cases s <;> cases s' <;> norm_num [factor]

theorem abs_factor_mul (s : Sign) {q : ℚ} (h : 0 ≤ q) : |factor s * q| = q := by
  cases s with
  | negative => rw [factor, neg_one_mul, abs_neg, abs_of_nonneg h]
  | positive => rw [factor, one_mul, abs_of_nonneg h]

theorem exactValue?_of_zero {x : Float} {s : Sign} (h : parts x = .zero s) :
    exactValue? x = some 0 := by
  change x.toModel.unpack = .zero s at h
  rw [exactValue?, h]

theorem exactValue?_of_infinity {x : Float} {s : Sign} (h : parts x = .infinity s) :
    exactValue? x = none := by
  change x.toModel.unpack = .infinity s at h
  rw [exactValue?, h]

theorem shifted_eq (n e : ℤ) :
    (match e with
      | .ofNat k => Rat.ofInt (n * (1 <<< k : ℕ))
      | .negSucc k => mkRat n (1 <<< (k + 1)) : ℚ) = (n : ℚ) * 2 ^ e := by
  cases e with
  | ofNat k =>
    change ((n * (1 <<< k : ℕ) : ℤ) : ℚ) = n * 2 ^ (k : ℤ)
    rw [Nat.one_shiftLeft, zpow_natCast]
    push_cast
    rfl
  | negSucc k =>
    dsimp only
    rw [Rat.mkRat_eq_div, Nat.one_shiftLeft, zpow_negSucc, Nat.cast_pow, Nat.cast_ofNat,
      div_eq_mul_inv]

theorem exactValue?_of_finite {x : Float} {s : Sign} {m : ℕ} {e : ℤ} {hm : 0 < m}
    (h : parts x = .finite s m e hm) : exactValue? x = some (factor s * (m * 2 ^ e)) := by
  change x.toModel.unpack = .finite s m e hm at h
  rw [exactValue?, h]
  cases s with
  | positive =>
    refine congrArg some ((shifted_eq m e).trans ?_)
    rw [factor, one_mul, Int.cast_natCast]
  | negative =>
    refine congrArg some ((shifted_eq (-m) e).trans ?_)
    rw [factor, Int.cast_neg, Int.cast_natCast, neg_mul, neg_one_mul]

theorem exists_of_exactValue? {x : Float} {a : ℚ} (h : exactValue? x = some a) :
    (∃ s, parts x = .zero s ∧ a = 0) ∨
      ∃ s m e hm, parts x = .finite s m e hm ∧ Canonical m e ∧ a = factor s * (m * 2 ^ e) := by
  have hrounded := rounded_parts x
  cases hx : parts x with
  | notANumber =>
    change x.toModel.unpack = .notANumber at hx
    rw [exactValue?, hx] at h
    cases h
  | infinity s =>
    rw [exactValue?_of_infinity hx] at h
    cases h
  | zero s =>
    rw [exactValue?_of_zero hx] at h
    cases h
    exact .inl ⟨s, rfl, rfl⟩
  | finite s m e hm =>
    rw [exactValue?_of_finite hx] at h
    cases h
    rw [hx] at hrounded
    exact .inr ⟨s, m, e, hm, rfl, hrounded, rfl⟩

/-- What a double keeps of a rounded number is exact, unless it is too large. -/
theorem exactValue?_of_isRounding {x : Float} {u : UnpackedFloat} {place : ℤ} {s : Sign} {v : ℚ}
    (hx : parts x = held u) (hround : IsRounding place s u) (hnear : Nearest (size u) v) :
    (parts x = .infinity s ∧ 2 ^ (1023 : ℤ) ≤ v) ∨
      ∃ r, exactValue? x = some (factor s * r) ∧ Nearest r v := by
  cases hround with
  | zero =>
    right
    refine ⟨0, ?_, hnear⟩
    rw [mul_zero]
    exact exactValue?_of_zero hx
  | @finite m e hm hform =>
    rw [held] at hx
    split at hx
    · rename_i hlarge
      refine .inl ⟨hx, ?_⟩
      by_contra hlt
      have hle : (m : ℚ) * 2 ^ e ≤ 2 ^ (1023 : ℤ) :=
        hnear.le_of_le (isSize_two_zpow (by decide)) (le_of_not_ge hlt)
      have hnormal : 2 ^ 52 ≤ m := hform.2.2.resolve_right (by omega)
      have hge : (2 : ℚ) ^ 52 * 2 ^ (972 : ℤ) ≤ m * 2 ^ e :=
        mul_le_mul (by exact_mod_cast hnormal) (zpow_le_zpow_right₀ one_le_two hlarge)
          (by positivity) (by positivity)
      have hpow : (2 : ℚ) ^ 52 * 2 ^ (972 : ℤ) = 2 ^ (1023 : ℤ) * 2 := by
        rw [← zpow_natCast, ← zpow_add₀ two_ne_zero, ← zpow_add_one₀ two_ne_zero]
        rfl
      have hpos : (0 : ℚ) < 2 ^ (1023 : ℤ) := by positivity
      rw [hpow] at hge
      exact absurd (hge.trans hle) (not_le.2 (lt_mul_of_one_lt_right hpos one_lt_two))
    · exact .inr ⟨_, exactValue?_of_finite hx, hnear⟩

theorem isSize_abs {x : Float} {a : ℚ} (h : exactValue? x = some a) : IsSize |a| := by
  rcases exists_of_exactValue? h with ⟨s, _, rfl⟩ | ⟨s, m, e, hm, _, hform, rfl⟩
  · rw [abs_zero]
    exact isSize_zero
  · rw [abs_factor_mul s (by positivity)]
    exact ⟨m, e, hform.1, hform.2.1, rfl⟩

section

variable {x y : Float} {a b : ℚ}

/-- A product is nearest to the exact one, or infinite if that is too large, and has its sign. -/
theorem exactValue?_mul (hx : exactValue? x = some a) (hy : exactValue? y = some b) :
    ∃ s, factor s * |a * b| = a * b ∧
      ((parts (x * y) = .infinity s ∧ 2 ^ (1023 : ℤ) ≤ |a * b|) ∨
        ∃ r, exactValue? (x * y) = some (factor s * r) ∧ Nearest r |a * b|) := by
  have hzero (s : Sign) (h : parts (x * y) = .zero s) (hab : a * b = 0) :
      ∃ s, factor s * |a * b| = a * b ∧
        ((parts (x * y) = .infinity s ∧ 2 ^ (1023 : ℤ) ≤ |a * b|) ∨
          ∃ r, exactValue? (x * y) = some (factor s * r) ∧ Nearest r |a * b|) := by
    rw [hab, abs_zero]
    refine ⟨s, mul_zero _, .inr ⟨0, ?_, nearest_zero⟩⟩
    rw [exactValue?_of_zero h, mul_zero]
  rcases exists_of_exactValue? hx with ⟨s, hpx, rfl⟩ | ⟨s, m, d, hm, hpx, hcx, rfl⟩
  · rcases exists_of_exactValue? hy with ⟨s', hpy, rfl⟩ | ⟨s', n, e, hn, hpy, -, rfl⟩
    · exact hzero (s * s') (by rw [parts_mul, hpx, hpy]; rfl) (zero_mul _)
    · exact hzero (s * s') (by rw [parts_mul, hpx, hpy]; rfl) (zero_mul _)
  · rcases exists_of_exactValue? hy with ⟨s', hpy, rfl⟩ | ⟨s', n, e, hn, hpy, hcy, rfl⟩
    · exact hzero (s * s') (by rw [parts_mul, hpx, hpy]; rfl) (mul_zero _)
    · have hround := isRounding_mul s s' hm hn hcx hcy
      have hnear := nearest_roundWithAccuracy (s * s')
        (le_targetExponent_mul hm hn hcx hcy) (stands_exact (m * n))
      have hparts := parts_mul x y
      rw [hpx, hpy] at hparts
      have habs : |factor s * (m * 2 ^ d) * (factor s' * (n * 2 ^ e))| =
          ((m * n : ℕ) : ℚ) * 2 ^ (d + e) := by
        rw [abs_mul, abs_factor_mul s (by positivity), abs_factor_mul s' (by positivity),
          zpow_add₀ two_ne_zero]
        push_cast
        ring
      rw [habs]
      refine ⟨s * s', ?_, exactValue?_of_isRounding hparts hround hnear⟩
      rw [factor_mul, zpow_add₀ two_ne_zero]
      push_cast
      ring

theorem exactValue?_mul_of_nonneg (hx : exactValue? x = some a) (hy : exactValue? y = some b)
    (ha : 0 ≤ a) (hb : 0 ≤ b) :
    (parts (x * y) = .infinity .positive ∧ 2 ^ (1023 : ℤ) ≤ a * b) ∨
      ∃ r, exactValue? (x * y) = some r ∧ Nearest r (a * b) := by
  obtain ⟨s, hsign, hproduct⟩ := exactValue?_mul hx hy
  rw [abs_of_nonneg (mul_nonneg ha hb)] at hsign hproduct
  cases s with
  | positive =>
    rw [factor] at hproduct
    simp only [one_mul] at hproduct
    exact hproduct
  | negative =>
    rw [factor] at hsign
    have hab : a * b = 0 := by linarith
    rw [hab] at hproduct ⊢
    rcases hproduct with ⟨-, hlarge⟩ | ⟨r, hr, hnear⟩
    · exact absurd hlarge (not_le.2 (by positivity))
    · right
      rw [hr, hnear.eq_of_isSize isSize_zero, mul_zero]
      exact ⟨0, rfl, nearest_zero⟩

theorem exactValue?_zero_mul (hx : exactValue? x = some 0) (hy : exactValue? y = some b) :
    exactValue? (x * y) = some 0 := by
  obtain ⟨s, -, hproduct⟩ := exactValue?_mul hx hy
  rw [zero_mul, abs_zero] at hproduct
  rcases hproduct with ⟨-, hlarge⟩ | ⟨r, hr, hnear⟩
  · exact absurd hlarge (not_le.2 (by positivity))
  · rw [hr, hnear.eq_of_isSize isSize_zero, mul_zero]

theorem exists_of_nonneg (h : exactValue? x = some a) (ha : 0 ≤ a) :
    (∃ s, parts x = .zero s ∧ a = 0) ∨
      ∃ m e hm, parts x = .finite .positive m e hm ∧ Canonical m e ∧ a = m * 2 ^ e := by
  rcases exists_of_exactValue? h with hzero | ⟨s, m, e, hm, hx, hform, rfl⟩
  · exact .inl hzero
  · cases s with
    | negative =>
      have hpos : (0 : ℚ) < m * 2 ^ e := by positivity
      rw [factor] at ha
      linarith
    | positive =>
      rw [factor, one_mul]
      exact .inr ⟨m, e, hm, hx, hform, rfl⟩

theorem exactValue?_of_isRounding_of_lt {u : UnpackedFloat} {place : ℤ} {v : ℚ}
    (hx : parts x = held u) (hround : IsRounding place .positive u) (hnear : Nearest (size u) v)
    (hv : v < 2 ^ (1023 : ℤ)) : ∃ r, exactValue? x = some r ∧ Nearest r v := by
  rcases exactValue?_of_isRounding hx hround hnear with ⟨-, hlarge⟩ | ⟨r, hr, hnear⟩
  · exact absurd hv (not_lt.2 hlarge)
  · rw [factor, one_mul] at hr
    exact ⟨r, hr, hnear⟩

theorem exactValue?_add (hx : exactValue? x = some a) (hy : exactValue? y = some b) (ha : 0 ≤ a)
    (hb : 0 ≤ b) (hsum : a + b < 2 ^ (1023 : ℤ)) :
    ∃ r, exactValue? (x + y) = some r ∧ Nearest r (a + b) := by
  rcases exists_of_nonneg hx ha with ⟨s, hpx, rfl⟩ | ⟨m, d, hm, hpx, hcx, rfl⟩
  · rcases exists_of_nonneg hy hb with ⟨s', hpy, rfl⟩ | ⟨n, e, hn, hpy, hcy, rfl⟩
    · obtain ⟨s'', hs⟩ : ∃ s'', parts (x + y) = .zero s'' := by
        rw [parts_add, hpx, hpy]
        cases s <;> cases s' <;> exact ⟨_, rfl⟩
      rw [exactValue?_of_zero hs, zero_add]
      exact ⟨0, rfl, nearest_zero⟩
    · have hkept := held_parts y
      have hparts := parts_add x y
      rw [hpy] at hkept
      rw [hpx, hpy] at hparts
      refine ⟨_, exactValue?_of_finite (hparts.trans hkept), ?_⟩
      rw [factor, one_mul, zero_add]
      exact nearest_self ⟨n, e, hcy.1, hcy.2.1, rfl⟩
  · rcases exists_of_nonneg hy hb with ⟨s', hpy, rfl⟩ | ⟨n, e, hn, hpy, hcy, rfl⟩
    · have hkept := held_parts x
      have hparts := parts_add x y
      rw [hpx] at hkept
      rw [hpx, hpy] at hparts
      refine ⟨_, exactValue?_of_finite (hparts.trans hkept), ?_⟩
      rw [factor, one_mul, add_zero]
      exact nearest_self ⟨m, d, hcx.1, hcx.2.1, rfl⟩
    · have halign {k : ℕ} {f t : ℤ} (h : t ≤ f) : (aligned k f t : ℚ) * 2 ^ t = k * 2 ^ f := by
        have hft : f = ((f - t).toNat : ℤ) + t := by omega
        change ((k <<< (f - t).toNat : ℕ) : ℚ) * 2 ^ t = _
        generalize (f - t).toNat = j at hft
        rw [Nat.shiftLeft_eq, hft, zpow_add₀ two_ne_zero, zpow_natCast]
        push_cast
        ring
      have hpos : 0 < aligned m d (min d e) + aligned n e (min d e) := by
        have hshift : 0 < m <<< (d - min d e).toNat := by
          rw [Nat.shiftLeft_eq]
          positivity
        exact Nat.add_pos_left hshift _
      have hparts := parts_add x y
      have hadd : add .binary64 (.finite .positive m d hm) (.finite .positive n e hn) =
          UnpackedFloat.normalize .binary64 (aligned m d (min d e) + aligned n e (min d e) : ℕ)
            (min d e) .positive := rfl
      rw [hpx, hpy, hadd, normalize_of_pos hpos] at hparts
      have hnear := nearest_round .positive hpos (min d e)
      rw [Nat.cast_add, add_mul, halign (min_le_left d e), halign (min_le_right d e)] at hnear
      exact exactValue?_of_isRounding_of_lt hparts (isRounding_round .positive hpos _) hnear hsum

theorem exactValue?_div (hx : exactValue? x = some a) (hy : exactValue? y = some b) (ha : 0 ≤ a)
    (hb : 0 < b) (hquot : a / b < 2 ^ (1023 : ℤ)) :
    ∃ r, exactValue? (x / y) = some r ∧ Nearest r (a / b) := by
  rcases exists_of_nonneg hy hb.le with ⟨s', hpy, rfl⟩ | ⟨n, e, hn, hpy, hcy, rfl⟩
  · exact absurd hb (lt_irrefl 0)
  rcases exists_of_nonneg hx ha with ⟨s, hpx, rfl⟩ | ⟨m, d, hm, hpx, hcx, rfl⟩
  · have hzero : parts (x / y) = .zero (s / .positive) := by
      rw [parts_div, hpx, hpy]
      rfl
    rw [exactValue?_of_zero hzero, zero_div]
    exact ⟨0, rfl, nearest_zero⟩
  · obtain ⟨hdigits, -⟩ := divCore_bounds (d := d) (e := e) hm hn
    have hparts := parts_div x y
    rw [hpx, hpy] at hparts
    have hless : (divCore .binary64 m d n e).2.1 ≤ d - e := min_le_left _ _
    have hnear : Nearest (size (div .binary64 (.finite .positive m d hm) (.finite .positive n e hn)))
        ((m <<< (d - e - (divCore .binary64 m d n e).2.1).toNat : ℕ) / n *
          2 ^ (divCore .binary64 m d n e).2.1) :=
      nearest_roundWithAccuracy .positive hdigits (stands_fraction _ hn)
    have hvalue : ((m <<< (d - e - (divCore .binary64 m d n e).2.1).toNat : ℕ) : ℚ) / n *
        2 ^ (divCore .binary64 m d n e).2.1 = m * 2 ^ d / (n * 2 ^ e) := by
      generalize (divCore .binary64 m d n e).2.1 = t at hless
      have hplaces : d = ((d - e - t).toNat : ℤ) + t + e := by omega
      generalize (d - e - t).toNat = k at hplaces
      rw [hplaces, zpow_add₀ two_ne_zero, zpow_add₀ two_ne_zero, zpow_natCast, Nat.shiftLeft_eq]
      push_cast
      field_simp
    rw [hvalue] at hnear
    exact exactValue?_of_isRounding_of_lt hparts (isRounding_roundWithAccuracy .positive _ hdigits)
      hnear hquot

theorem exactValue?_one : exactValue? 1.0 = some 1 := by decide +kernel

theorem natCast_lt {n : ℕ} (h : n < 2 ^ 64) : (n : ℚ) < 2 ^ (1023 : ℤ) := by
  calc (n : ℚ) < 2 ^ (64 : ℤ) := by exact_mod_cast h
    _ ≤ 2 ^ (1023 : ℤ) := zpow_le_zpow_right₀ one_le_two (by decide)

theorem exactValue?_toFloat {n : ℕ} (h : n < 2 ^ 53) :
    exactValue? n.toUInt64.toFloat = some (n : ℚ) := by
  have hparts := parts_toFloat n.toUInt64
  rw [UInt64.toNat_ofNat_of_lt' (Nat.lt_trans h (by decide))] at hparts
  rcases Nat.eq_zero_or_pos n with rfl | hn
  · exact exactValue?_of_zero hparts
  · have hnear := nearest_round .positive hn 0
    rw [zpow_zero, mul_one] at hnear
    rw [normalize_of_pos hn] at hparts
    obtain ⟨r, hr, hnear⟩ := exactValue?_of_isRounding_of_lt hparts (isRounding_round _ hn 0) hnear
      (natCast_lt (Nat.lt_trans h (by decide)))
    rw [hr, hnear.eq_of_isSize (isSize_natCast h)]

theorem exactValue?_ofNat {n : ℕ} (h : n < 2 ^ 64) :
    ∃ r, exactValue? (Float.ofNat n) = some r ∧ Nearest r n := by
  by_cases hn : n < 2 ^ 53
  · have hsize : IsSize n := isSize_natCast hn
    refine ⟨n, ?_, nearest_self hsize⟩
    rw [ofNat_of_lt hn]
    rcases exactValue?_mul_of_nonneg (exactValue?_toFloat hn) exactValue?_one (Nat.cast_nonneg n)
      zero_le_one with ⟨-, hlarge⟩ | ⟨r, hr, hnear⟩
    · rw [mul_one] at hlarge
      exact absurd (natCast_lt h) (not_lt.2 hlarge)
    · rw [mul_one] at hnear
      rw [hr, hnear.eq_of_isSize hsize]
  · have hpos : 0 < n := by omega
    have hplace := totalExponent_shiftLeft hpos 0 53
    have hround := isRounding_of_shiftLeft hpos (Nat.le_refl 53)
    have hnear := nearest_roundWithAccuracy .positive (m := n <<< 53) (e := 0 - (53 : ℕ))
      (by rw [hplace, targetExponent_eq, totalExponent]; omega) (stands_exact _)
    have hvalue : ((n <<< 53 : ℕ) : ℚ) * 2 ^ (0 - ((53 : ℕ) : ℤ)) = n := by
      rw [Nat.shiftLeft_eq, zpow_sub₀ two_ne_zero, zpow_natCast, zpow_zero]
      push_cast
      field_simp
      norm_num
    have hscientific := ofScientific_of_large (n := n) (k := 0) fun hsmall => hn hsmall.1
    rw [ofScientific_eq hpos.ne' (by decide), Nat.pow_zero, Nat.mul_one] at hscientific
    rw [hvalue] at hnear
    generalize roundWithAccuracy .binary64 .positive (n <<< 53) (0 - (53 : ℕ)) .exact = u
      at hround hnear hscientific
    have hparts : parts (Float.ofNat n) = held u := by
      change parts (Float.ofScientific n false 0) = held u
      rw [hscientific]
      exact parts_pack (rounded_of_isRounding hround)
    exact exactValue?_of_isRounding_of_lt hparts hround hnear (natCast_lt h)

end

theorem lex_iff_lt {m n : ℕ} {d e : ℤ} (hm : Canonical m d) (hn : Canonical n e) :
    (d < e ∨ d = e ∧ m < n) ↔ (m : ℚ) * 2 ^ d < n * 2 ^ e := by
  have hlarger {m n : ℕ} {d e : ℤ} (hm : Canonical m d) (hn : Canonical n e) (h : d < e) :
      (m : ℚ) * 2 ^ d < n * 2 ^ e := by
    -- A larger exponent is not the least, so `n` has all its digits and twice it exceeds `m`.
    have hnormal : 2 ^ 52 ≤ n := hn.2.2.resolve_right (by have := hm.2.1; omega)
    calc (m : ℚ) * 2 ^ d < 2 ^ 53 * 2 ^ d :=
          mul_lt_mul_of_pos_right (by exact_mod_cast hm.1) (by positivity)
      _ = 2 ^ 52 * 2 ^ (d + 1) := by
          rw [zpow_add_one₀ two_ne_zero]
          ring
      _ ≤ n * 2 ^ e :=
          mul_le_mul (by exact_mod_cast hnormal) (zpow_le_zpow_right₀ one_le_two h)
            (by positivity) (by positivity)
  have hscale (k : ℤ) : (0 : ℚ) < 2 ^ k := by positivity
  constructor
  · rintro (hlt | ⟨rfl, hlt⟩)
    · exact hlarger hm hn hlt
    · exact mul_lt_mul_of_pos_right (by exact_mod_cast hlt) (hscale d)
  · intro hlt
    rcases lt_trichotomy d e with hless | rfl | hmore
    · exact .inl hless
    · exact .inr ⟨rfl, by exact_mod_cast lt_of_mul_lt_mul_right hlt (hscale d).le⟩
    · exact absurd hlt (hlarger hn hm hmore).not_gt

section

variable {x y : Float} {a b : ℚ}

theorem isNaN_of_exactValue? (h : exactValue? x = some a) : ¬ x.isNaN := by
  rw [isNaN_iff]
  rcases exists_of_exactValue? h with ⟨s, hx, -⟩ | ⟨s, m, e, hm, hx, -, -⟩ <;> rw [hx] <;> exact nofun

theorem lt_iff_of_exactValue? (hx : exactValue? x = some a) (hy : exactValue? y = some b) :
    x < y ↔ a < b := by
  rw [lt_iff_key (isNaN_of_exactValue? hx) (isNaN_of_exactValue? hy)]
  have hpositive {m : ℕ} (hm : 0 < m) (e : ℤ) : (0 : ℚ) < m * 2 ^ e := by positivity
  rcases exists_of_exactValue? hx with ⟨s, hpx, rfl⟩ | ⟨s, m, d, hm, hpx, hcx, rfl⟩
  · rcases exists_of_exactValue? hy with ⟨s', hpy, rfl⟩ | ⟨s', n, e, hn, hpy, hcy, rfl⟩
    · rw [hpx, hpy]
      exact iff_of_false (lt_irrefl _) (lt_irrefl _)
    · have hpos := hpositive hn e
      rw [hpx, hpy]
      cases s' <;> simp [key, Sign.apply, Prod.Lex.toLex_lt_toLex, factor, hpos, hpos.le]
  · have hpos := hpositive hm d
    rw [hpx]
    rcases exists_of_exactValue? hy with ⟨s', hpy, rfl⟩ | ⟨s', n, e, hn, hpy, hcy, rfl⟩
    · rw [hpy]
      cases s <;> simp [key, Sign.apply, Prod.Lex.toLex_lt_toLex, factor, hpos, hpos.le]
    · have hpos' := hpositive hn e
      have hlt := lex_iff_lt hcx hcy
      have hgt := lex_iff_lt hcy hcx
      rw [hpy]
      -- Numbers of one sign are ordered by their sizes, and the sign alone orders the others.
      cases s <;> cases s' <;>
        simp only [key, Sign.apply, Prod.Lex.toLex_lt_toLex, factor, one_mul, neg_one_mul, true_and]
      case negative.negative =>
        rw [neg_lt_neg_iff (a := (m : ℚ) * 2 ^ d), ← hgt]
        omega
      case negative.positive => exact iff_of_true (.inl (by decide)) (by linarith)
      case positive.negative =>
        refine iff_of_false (fun hkey => ?_) (by linarith)
        omega
      case positive.positive =>
        rw [← hlt]
        omega

theorem le_iff_of_exactValue? (hx : exactValue? x = some a) (hy : exactValue? y = some b) :
    x ≤ y ↔ a ≤ b := by
  have hlt := lt_iff_of_exactValue? hy hx
  rw [lt_iff_key (isNaN_of_exactValue? hy) (isNaN_of_exactValue? hx)] at hlt
  rw [le_iff_key (isNaN_of_exactValue? hx) (isNaN_of_exactValue? hy), ← not_lt, hlt, not_lt]

theorem le_of_lt (h : x < y) : x ≤ y := by
  rw [le_iff, UnpackedFloat.le, lt_iff.1 h]
  rfl

theorem isFinite_iff : x.isFinite = true ↔ ∃ a, exactValue? x = some a := by
  change (parts x).isFinite = true ↔ _
  constructor
  · intro h
    cases hx : parts x with
    | zero s => exact ⟨_, exactValue?_of_zero hx⟩
    | finite s m e hm => exact ⟨_, exactValue?_of_finite hx⟩
    | _ =>
      rw [hx] at h
      cases h
  · rintro ⟨a, ha⟩
    rcases exists_of_exactValue? ha with ⟨s, hx, -⟩ | ⟨s, m, e, hm, hx, -, -⟩ <;> rw [hx] <;> rfl

theorem exactValue?_zero : exactValue? 0.0 = some 0 := by decide +kernel

theorem exists_of_between (hx : 0.0 ≤ x) (h : x ≤ y) (hy : exactValue? y = some b) :
    ∃ a, exactValue? x = some a ∧ 0 ≤ a ∧ a ≤ b := by
  obtain ⟨a, ha⟩ := isFinite_iff.1
    (isFinite_of_between (isFinite_iff.2 ⟨_, exactValue?_zero⟩) (isFinite_iff.2 ⟨_, hy⟩) hx h)
  exact ⟨a, ha, (le_iff_of_exactValue? exactValue?_zero ha).1 hx, (le_iff_of_exactValue? ha hy).1 h⟩

/-- A number other than zero has one form. -/
theorem parts_eq_of_exactValue? (hx : exactValue? x = some a) (hy : exactValue? y = some a)
    (ha : 0 < a) : parts x = parts y := by
  rcases exists_of_nonneg hx ha.le with ⟨_, _, hzero⟩ | ⟨m, d, hm, hpx, hcx, rfl⟩
  · exact absurd hzero ha.ne'
  · rcases exists_of_nonneg hy ha.le with ⟨_, _, hzero⟩ | ⟨n, e, hn, hpy, hcy, heq⟩
    · exact absurd hzero ha.ne'
    · have hlt := mt (lex_iff_lt hcx hcy).1 heq.not_lt
      have hgt := mt (lex_iff_lt hcy hcx).1 heq.not_gt
      obtain rfl : d = e := by omega
      obtain rfl : m = n := by omega
      rw [hpx, hpy]

theorem exactValue?_congr (h : parts x = parts y) : exactValue? x = exactValue? y := by
  change x.toModel.unpack = y.toModel.unpack at h
  rw [exactValue?, exactValue?, h]

theorem exactValue?_mul_mono {z : Float} {c r : ℚ} (hx : exactValue? x = some a)
    (hy : exactValue? y = some b) (hz : exactValue? z = some c) (ha : 0 ≤ a) (hb : 0 ≤ b)
    (hbc : b ≤ c) (hr : exactValue? (x * z) = some r) (hlt : r < 2 ^ (1023 : ℤ)) :
    ∃ q, exactValue? (x * y) = some q ∧ 0 ≤ q ∧ q ≤ r := by
  obtain ⟨hrlt, hnear⟩ : a * c < 2 ^ (1023 : ℤ) ∧ Nearest r (a * c) := by
    rcases exactValue?_mul_of_nonneg hx hz ha (hb.trans hbc) with ⟨hlarge, -⟩ | ⟨r', hr', hnear⟩
    · rw [exactValue?_of_infinity hlarge] at hr
      cases hr
    · obtain rfl : r' = r := Option.some.inj (hr'.symm.trans hr)
      refine ⟨lt_of_not_ge fun hge => ?_, hnear⟩
      exact absurd hlt (not_lt.2 (hnear.ge_of_ge (isSize_two_zpow (by decide)) hge))
  have hmul : a * b ≤ a * c := mul_le_mul_of_nonneg_left hbc ha
  rcases exactValue?_mul_of_nonneg hx hy ha hb with ⟨-, hlarge⟩ | ⟨q, hq, hnearq⟩
  · exact absurd (hlarge.trans hmul) (not_le.2 hrlt)
  · refine ⟨q, hq, hnearq.isSize.nonneg, ?_⟩
    rcases hmul.lt_or_eq with hless | heq
    · exact hnearq.mono hnear hless
    · rcases (mul_nonneg ha hb).eq_or_lt with hzero | hpos
      · rw [← hzero] at hnearq
        rw [hnearq.eq_of_isSize isSize_zero]
        exact hnear.isSize.nonneg
      · obtain rfl : b = c := mul_left_cancel₀ (left_ne_zero_of_mul hpos.ne') heq
        have hparts := parts_eq_of_exactValue? hy hz (pos_of_mul_pos_right hpos ha)
        have hsame : parts (x * y) = parts (x * z) := by rw [parts_mul, parts_mul, hparts]
        rw [exactValue?_congr hsame, hr] at hq
        exact (Option.some.inj hq).ge

theorem zero_le_mul (hx : exactValue? x = some a) (hy : exactValue? y = some b) (ha : 0 ≤ a)
    (hb : 0 ≤ b) : 0.0 ≤ x * y := by
  rcases exactValue?_mul_of_nonneg hx hy ha hb with ⟨hlarge, -⟩ | ⟨r, hr, hnear⟩
  · rw [le_iff, hlarge]
    rfl
  · exact (le_iff_of_exactValue? exactValue?_zero hr).2 hnear.isSize.nonneg

theorem not_zero_le_mul (hx : exactValue? x = some a) (hy : exactValue? y = some b) (ha : 1 ≤ a)
    (hb : b < 0) : ¬ 0.0 ≤ x * y := by
  have hneg : a * b < 0 := mul_neg_of_pos_of_neg (by linarith) hb
  obtain ⟨s, hsign, hproduct⟩ := exactValue?_mul hx hy
  cases s with
  | positive =>
    rw [factor, one_mul] at hsign
    exact absurd (abs_nonneg (a * b)) (not_le.2 (hsign.trans_lt hneg))
  | negative =>
    rcases hproduct with ⟨hlarge, -⟩ | ⟨r, hr, hnear⟩
    · rw [le_iff, hlarge]
      exact nofun
    · have hleast : |b| ≤ |a * b| := by
        rw [abs_mul]
        exact le_mul_of_one_le_left (abs_nonneg b) (ha.trans (le_abs_self a))
      have hpos : 0 < r := (abs_pos.2 hb.ne).trans_le (hnear.ge_of_ge (isSize_abs hy) hleast)
      rw [le_iff_of_exactValue? exactValue?_zero hr, factor]
      linarith

end

end ProviderScout.Double
