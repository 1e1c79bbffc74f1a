import Mathlib.Algebra.Order.Round
import Mathlib.Data.Rat.Floor
import ProviderScout.Proofs.Number.Values
import ProviderScout.Time.Duration

namespace ProviderScout

section

variable {p q : ℚ}

theorem roundHalfEven_eq (q : ℚ) :
    roundHalfEven q =
      if Int.fract q < 1 / 2 ∨ Int.fract q = 1 / 2 ∧ ⌊q⌋₊ % 2 = 0 then ⌊q⌋₊ else ⌊q⌋₊ + 1 := by
  have hpos : (0 : ℚ) < q.den := by exact_mod_cast q.den_pos
  have hwhole : (q.num / q.den).toNat = ⌊q⌋₊ := by
    rw [← Int.floor_toNat, Rat.floor_def']
  have hfract : Int.fract q = (q.num % q.den : ℤ) / q.den := by
    rw [Int.fract, Rat.floor_def', eq_div_iff hpos.ne', sub_mul, Rat.mul_den_eq_num]
    have hsplit := Int.emod_add_mul_ediv q.num q.den
    rw [sub_eq_iff_eq_add]
    exact_mod_cast (by linarith : q.num = q.num % q.den + q.num / q.den * q.den)
  have hless : 2 * (q.num % q.den) < q.den ↔ Int.fract q < 1 / 2 := by
    rw [hfract, div_lt_div_iff₀ hpos two_pos, one_mul, mul_comm]
    exact_mod_cast Iff.rfl
  have hhalf : 2 * (q.num % q.den) = q.den ↔ Int.fract q = 1 / 2 := by
    rw [hfract, div_eq_div_iff hpos.ne' two_ne_zero, one_mul, mul_comm]
    exact_mod_cast Iff.rfl
  rw [roundHalfEven]
  simp only [hwhole, hless, hhalf]

theorem abs_roundHalfEven_sub_le (h : 0 ≤ q) : |(roundHalfEven q : ℚ) - q| ≤ 1 / 2 := by
  have hsplit : (⌊q⌋₊ : ℚ) + Int.fract q = q := by
    rw [natCast_floor_eq_intCast_floor h]
    exact Int.floor_add_fract q
  have hnonneg := Int.fract_nonneg q
  have hlt := Int.fract_lt_one q
  rw [roundHalfEven_eq q, abs_le]
  split
  · rename_i hdown
    have hle : Int.fract q ≤ 1 / 2 := hdown.elim le_of_lt fun heq => heq.1.le
    constructor <;> linarith
  · rename_i hup
    have hge : 1 / 2 ≤ Int.fract q := not_lt.1 fun hless => hup (.inl hless)
    push_cast
    constructor <;> linarith

theorem roundHalfEven_mono (hp : 0 ≤ p) (h : p ≤ q) : roundHalfEven p ≤ roundHalfEven q := by
  have hq : 0 ≤ q := hp.trans h
  rcases (Nat.floor_mono h).lt_or_eq with hless | hsame
  · calc roundHalfEven p ≤ ⌊p⌋₊ + 1 := by
          rw [roundHalfEven_eq p]
          split <;> omega
      _ ≤ ⌊q⌋₊ := hless
      _ ≤ roundHalfEven q := by
          rw [roundHalfEven_eq q]
          split <;> omega
  · have hfract : Int.fract p ≤ Int.fract q := by
      have hfloor : (⌊p⌋ : ℚ) = ⌊q⌋ := by
        rw [← natCast_floor_eq_intCast_floor hp, ← natCast_floor_eq_intCast_floor hq, hsame]
      rw [Int.fract, Int.fract, hfloor]
      exact sub_le_sub_right h _
    rw [roundHalfEven_eq p, roundHalfEven_eq q, hsame]
    split
    · split <;> omega
    · rename_i hup
      rw [if_neg]
      rintro (hless | ⟨hhalf, heven⟩)
      · exact hup (.inl (hfract.trans_lt hless))
      · rcases (hfract.trans hhalf.le).lt_or_eq with hless | heq
        · exact hup (.inl hless)
        · exact hup (.inr ⟨heq, heven⟩)

theorem roundHalfEven_eq_of_abs_lt {n : ℕ} (hq : 0 ≤ q) (h : |q - n| < 1 / 2) :
    roundHalfEven q = n := by
  have hround := abs_roundHalfEven_sub_le hq
  have htriangle := abs_sub_le (roundHalfEven q : ℚ) q n
  have hnear : |(roundHalfEven q : ℤ) - (n : ℤ)| < 1 := by
    have hlt : |(roundHalfEven q : ℚ) - n| < 1 := by linarith
    exact_mod_cast hlt
  have heq := sub_eq_zero.1 (Int.abs_lt_one_iff.1 hnear)
  exact Int.ofNat.inj heq

end

theorem Double.Nearest.abs_sub_le {r v : ℚ} (h : Nearest r v) {k : ℤ} (hk : -1021 ≤ k)
    (hv : 0 ≤ v) (hle : v ≤ 2 ^ k) : |r - v| ≤ 2 ^ (k - 54) := by
  have hpos : (0 : ℚ) < 2 ^ (k - 53) := by positivity
  have hunits : v = v / 2 ^ (k - 53) * 2 ^ (k - 53) := (div_mul_cancel₀ v hpos.ne').symm
  have hmost : v / 2 ^ (k - 53) ≤ (2 ^ 53 : ℕ) := by
    rw [div_le_iff₀ hpos, Nat.cast_pow, Nat.cast_ofNat, ← zpow_natCast, ← zpow_add₀ two_ne_zero]
    exact hle.trans_eq (congrArg _ (by omega))
  have hnonneg : 0 ≤ v / 2 ^ (k - 53) := by positivity
  generalize v / 2 ^ (k - 53) = x at hunits hmost hnonneg
  have hdigits : roundHalfEven x ≤ 2 ^ 53 := by
    calc roundHalfEven x ≤ roundHalfEven (2 ^ 53 : ℕ) := roundHalfEven_mono hnonneg hmost
      _ = 2 ^ 53 := roundHalfEven_eq_of_abs_lt (Nat.cast_nonneg _) (by norm_num)
  have hsize := isSize_of_le hdigits (show -1074 ≤ k - 53 by omega)
  calc |r - v| ≤ |roundHalfEven x * 2 ^ (k - 53) - v| := h.least hsize
    _ = |(roundHalfEven x : ℚ) - x| * 2 ^ (k - 53) := by
        rw [hunits, ← sub_mul, abs_mul, abs_of_pos hpos]
    _ ≤ 1 / 2 * 2 ^ (k - 53) :=
        mul_le_mul_of_nonneg_right (abs_roundHalfEven_sub_le hnonneg) hpos.le
    _ = 2 ^ (k - 54) := by
        have hhalf : k - 53 = k - 54 + 1 := by omega
        rw [hhalf, zpow_add_one₀ two_ne_zero]
        ring

namespace Duration

open Double (IsSize Nearest)

theorem ofNanos?_eq_some_iff {n : ℕ} {d : Duration} : ofNanos? n = some d ↔ d.nanos = n := by
  obtain ⟨k, hk⟩ := d
  rw [ofNanos?]
  constructor
  · intro h
    split at h
    · cases h
      rfl
    · cases h
  · rintro rfl
    exact dif_pos hk

theorem ofFloat?_of_nonneg {x : Float} {q : ℚ} (h : exactValue? x = some q) (hq : 0 ≤ q) :
    ofFloat? x = ofNanos? (roundHalfEven (q * 1000000000)) := by
  have hnum : ¬ q.num < 0 := not_lt.2 (Rat.num_nonneg.2 hq)
  rw [ofFloat?, h]
  exact if_neg hnum

/-- The doubles below the limit stay away from it, so rounding does not reach it. -/
theorem roundHalfEven_lt_limit_iff {q : ℚ} (hq : 0 ≤ q) (hsize : IsSize q) :
    roundHalfEven (q * 1000000000) < limit ↔ q < 2 ^ 64 := by
  have hnonneg : 0 ≤ q * 1000000000 := by positivity
  have hround := abs_le.1 (abs_roundHalfEven_sub_le hnonneg)
  have hlimit : (limit : ℚ) = 2 ^ 64 * 1000000000 := by norm_num [limit, perSecond]
  constructor
  · intro hlt
    have hle : (roundHalfEven (q * 1000000000) : ℚ) + 1 ≤ limit := by exact_mod_cast hlt
    linarith
  · intro hlt
    have hstep : q ≤ 2 ^ 64 - 1 := by
      obtain ⟨m, e, hm, -, rfl⟩ := hsize
      rcases le_or_gt 0 e with hwhole | hsmall
      · obtain ⟨k, rfl⟩ := Int.eq_ofNat_of_zero_le hwhole
        rw [zpow_natCast] at hlt ⊢
        have hle : m * 2 ^ k + 1 ≤ 2 ^ 64 := by exact_mod_cast hlt
        have hcast : (m : ℚ) * 2 ^ k + 1 ≤ 2 ^ 64 := by exact_mod_cast hle
        linarith
      · have hle : (m : ℚ) * 2 ^ e ≤ m :=
          mul_le_of_le_one_right (Nat.cast_nonneg m) (zpow_le_one_of_nonpos₀ one_le_two hsmall.le)
        have hcast : (m : ℚ) ≤ 2 ^ 53 := by exact_mod_cast hm.le
        linarith
    have hless : (roundHalfEven (q * 1000000000) : ℚ) < limit := by linarith
    exact_mod_cast hless

theorem exists_of_ofFloat? {x : Float} {d : Duration} (h : ofFloat? x = some d) :
    ∃ q, exactValue? x = some q ∧ 0 ≤ q ∧ q < 2 ^ 64 ∧
      d.nanos = roundHalfEven (q * 1000000000) := by
  cases hx : exactValue? x with
  | none =>
    rw [ofFloat?, hx] at h
    cases h
  | some q =>
    rcases lt_or_ge q 0 with hneg | hq
    · have hnum : q.num < 0 := Rat.num_neg.2 hneg
      rw [ofFloat?, hx] at h
      dsimp only at h
      rw [if_pos hnum] at h
      cases h
    · have hsize := Double.isSize_abs hx
      rw [abs_of_nonneg hq] at hsize
      rw [ofFloat?_of_nonneg hx hq, ofNanos?_eq_some_iff] at h
      have hlt := d.inRange
      rw [h, roundHalfEven_lt_limit_iff hq hsize] at hlt
      exact ⟨q, rfl, hq, hlt, h⟩

theorem exactValue?_limit : exactValue? 18446744073709551616.0 = some (2 ^ 64) := by decide +kernel

/-- The numbers that are lengths of time. -/
theorem isSome_ofFloat?_iff (x : Float) :
    (ofFloat? x).isSome ↔ 0.0 ≤ x ∧ x < 18446744073709551616.0 := by
  constructor
  · intro h
    obtain ⟨d, hd⟩ := Option.isSome_iff_exists.1 h
    obtain ⟨q, hx, hq, hlt, -⟩ := exists_of_ofFloat? hd
    rw [Double.le_iff_of_exactValue? Double.exactValue?_zero hx,
      Double.lt_iff_of_exactValue? hx exactValue?_limit]
    exact ⟨hq, hlt⟩
  · rintro ⟨hnonneg, hlt⟩
    obtain ⟨q, hx, hq, -⟩ :=
      Double.exists_of_between hnonneg (Double.le_of_lt hlt) exactValue?_limit
    have hsize := Double.isSize_abs hx
    rw [abs_of_nonneg hq] at hsize
    rw [Double.lt_iff_of_exactValue? hx exactValue?_limit,
      ← roundHalfEven_lt_limit_iff hq hsize] at hlt
    rw [ofFloat?_of_nonneg hx hq, ofNanos?, dif_pos hlt]
    rfl

theorem ofFloat?_mono {x y : Float} {p q : ℚ} (hx : exactValue? x = some p)
    (hy : exactValue? y = some q) (hp : 0 ≤ p) (h : p ≤ q) {e : Duration}
    (he : ofFloat? y = some e) : ∃ d, ofFloat? x = some d ∧ d.nanos ≤ e.nanos := by
  rw [ofFloat?_of_nonneg hy (hp.trans h), ofNanos?_eq_some_iff] at he
  have hle : roundHalfEven (p * 1000000000) ≤ e.nanos := by
    rw [he]
    exact roundHalfEven_mono (by positivity) (by linarith)
  rw [ofFloat?_of_nonneg hx hp]
  exact ⟨⟨_, hle.trans_lt e.inRange⟩, ofNanos?_eq_some_iff.2 rfl, hle⟩

theorem exists_toFloat (d : Duration) :
    ∃ s f q, Nearest s d.seconds ∧ Nearest f (d.subsecond / 1000000000) ∧ Nearest q (s + f) ∧
      exactValue? d.toFloat = some q := by
  have hsub : d.subsecond < perSecond := Nat.mod_lt _ (by decide)
  have hseconds : d.seconds < 2 ^ 64 := (Nat.div_lt_iff_lt_mul (by decide)).2 d.inRange
  have hpersecond : exactValue? 1000000000.0 = some 1000000000 := by decide +kernel
  obtain ⟨s, hs, hnears⟩ := Double.exactValue?_ofNat hseconds
  obtain ⟨n, hn, hnearn⟩ := Double.exactValue?_ofNat (Nat.lt_trans hsub (by decide))
  obtain rfl : n = d.subsecond :=
    hnearn.eq_of_isSize (Double.isSize_natCast (Nat.lt_trans hsub (by decide)))
  have hless : (d.subsecond : ℚ) / 1000000000 < 1 := by
    rw [div_lt_one (by norm_num)]
    exact_mod_cast hsub
  obtain ⟨f, hf, hnearf⟩ := Double.exactValue?_div hn hpersecond (Nat.cast_nonneg _) (by norm_num)
    (hless.trans (one_lt_zpow₀ one_lt_two (by decide)))
  have hfle : f ≤ 1 := hnearf.le_of_le Double.isSize_one hless.le
  have hsle : s ≤ 2 ^ (64 : ℤ) :=
    hnears.le_of_le (Double.isSize_two_zpow (by decide)) (by exact_mod_cast hseconds.le)
  have hsum : s + f < 2 ^ (1023 : ℤ) := by
    calc s + f ≤ 2 ^ (64 : ℤ) + 1 := add_le_add hsle hfle
      _ < 2 ^ (65 : ℤ) := by norm_num
      _ ≤ 2 ^ (1023 : ℤ) := zpow_le_zpow_right₀ one_le_two (by decide)
  obtain ⟨q, hq, hnearq⟩ :=
    Double.exactValue?_add hs hf hnears.isSize.nonneg hnearf.isSize.nonneg hsum
  exact ⟨s, f, q, hnears, hnearf, hnearq, hq⟩

theorem exists_value (d : Duration) : ∃ q, exactValue? d.toFloat = some q ∧ 0 ≤ q := by
  obtain ⟨s, f, q, -, -, hnear, hq⟩ := exists_toFloat d
  exact ⟨q, hq, hnear.isSize.nonneg⟩

theorem one_le_value {d : Duration} (h : perSecond ≤ d.nanos) {q : ℚ}
    (hq : exactValue? d.toFloat = some q) : 1 ≤ q := by
  obtain ⟨s, f, q', hs, hf, hnear, hq'⟩ := exists_toFloat d
  obtain rfl : q' = q := Option.some.inj (hq'.symm.trans hq)
  have hseconds : (1 : ℚ) ≤ d.seconds := by
    exact_mod_cast (Nat.one_le_div_iff (by decide)).2 h
  have hone : 1 ≤ s := hs.ge_of_ge Double.isSize_one hseconds
  exact hnear.ge_of_ge Double.isSize_one (le_add_of_le_of_nonneg hone hf.isSize.nonneg)

/-- The longest length whose double tells it up to a quarter of a nanosecond. -/
def finest : ℕ := 2 ^ 22 * perSecond

theorem abs_value_sub_lt {d : Duration} (h : d.nanos < finest) {q : ℚ}
    (hq : exactValue? d.toFloat = some q) : |q * 1000000000 - d.nanos| < 1 / 4 := by
  obtain ⟨s, f, q', hs, hf, hnear, hq'⟩ := exists_toFloat d
  obtain rfl : q' = q := Option.some.inj (hq'.symm.trans hq)
  have hseconds : d.seconds < 2 ^ 22 := (Nat.div_lt_iff_lt_mul (by decide)).2 h
  obtain rfl : s = d.seconds :=
    hs.eq_of_isSize (Double.isSize_natCast (Nat.lt_trans hseconds (by decide)))
  have hsub : d.subsecond < perSecond := Nat.mod_lt _ (by decide)
  have hless : (d.subsecond : ℚ) / 1000000000 ≤ 1 := by
    rw [div_le_one (by norm_num)]
    exact_mod_cast hsub.le
  have hfle : f ≤ 1 := hf.le_of_le Double.isSize_one hless
  have hsum : (d.seconds : ℚ) + f ≤ 2 ^ (22 : ℤ) := by
    have hcast : (d.seconds : ℚ) + 1 ≤ 2 ^ (22 : ℤ) := by exact_mod_cast hseconds
    linarith
  have hfraction := hf.abs_sub_le (k := 0) (by decide) (by positivity) (by simpa using hless)
  have htotal := hnear.abs_sub_le (k := 22) (by decide)
    (add_nonneg (Nat.cast_nonneg _) hf.isSize.nonneg) hsum
  have hnanos : (d.nanos : ℚ) = (d.seconds + d.subsecond / 1000000000) * 1000000000 := by
    rw [add_mul, div_mul_cancel₀ _ (by norm_num)]
    exact_mod_cast (Nat.div_add_mod' d.nanos perSecond).symm
  rw [hnanos, ← sub_mul, abs_mul, abs_of_pos (by norm_num : (0 : ℚ) < 1000000000)]
  have htriangle := abs_sub_le q' (d.seconds + f) (d.seconds + d.subsecond / 1000000000)
  rw [add_sub_add_left_eq_sub] at htriangle
  norm_num at hfraction htotal
  linarith

end Duration

end ProviderScout
