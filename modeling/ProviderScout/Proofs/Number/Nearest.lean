import ProviderScout.Proofs.Number.Rounding

namespace ProviderScout.Double

open Float.Model (Format UnpackedFloat totalExponent)
open Float.Model.UnpackedFloat

/-- Whether a number is the size of a double, whose exponent may be as large as one likes. -/
def IsSize (q : ℚ) : Prop := ∃ (m : ℕ) (e : ℤ), m < 2 ^ 53 ∧ -1074 ≤ e ∧ q = m * 2 ^ e

/-- Whether no size of a double is nearer to a number. -/
structure Nearest (r v : ℚ) : Prop where
  isSize : IsSize r
  least {c : ℚ} : IsSize c → |r - v| ≤ |c - v|

theorem isSize_natCast {n : ℕ} (h : n < 2 ^ 53) : IsSize n := ⟨n, 0, h, by decide, by simp⟩

theorem isSize_zero : IsSize 0 := ⟨0, 0, by decide, by decide, by simp⟩

theorem isSize_one : IsSize 1 := ⟨1, 0, by decide, by decide, by simp⟩

theorem isSize_two_zpow {k : ℤ} (h : -1074 ≤ k) : IsSize (2 ^ k) := ⟨1, k, by decide, h, by simp⟩

theorem IsSize.double {q : ℚ} (h : IsSize q) : IsSize (q * 2) := by
  obtain ⟨m, e, hm, he, rfl⟩ := h
  refine ⟨m, e + 1, hm, by omega, ?_⟩
  rw [zpow_add_one₀ two_ne_zero, mul_assoc]

theorem IsSize.nonneg {q : ℚ} (h : IsSize q) : 0 ≤ q := by
  obtain ⟨m, e, _, _, rfl⟩ := h
  positivity

theorem nearest_self {q : ℚ} (h : IsSize q) : Nearest q q :=
  ⟨h, fun _ => by rw [sub_self, abs_zero]; exact abs_nonneg _⟩

theorem nearest_zero : Nearest 0 0 := nearest_self isSize_zero

namespace Nearest

variable {r v c : ℚ}

theorem le_of_le (h : Nearest r v) (hc : IsSize c) (hle : v ≤ c) : r ≤ c := by
  by_contra hlt
  have hleast := h.least hc
  rw [abs_of_nonneg (by linarith), abs_of_nonneg (by linarith)] at hleast
  linarith

theorem ge_of_ge (h : Nearest r v) (hc : IsSize c) (hle : c ≤ v) : c ≤ r := by
  by_contra hlt
  have hleast := h.least hc
  rw [abs_of_nonpos (by linarith), abs_of_nonpos (by linarith)] at hleast
  linarith

theorem eq_of_isSize (h : Nearest r v) (hv : IsSize v) : r = v :=
  le_antisymm (h.le_of_le hv (le_refl v)) (h.ge_of_ge hv (le_refl v))

theorem mono {r' v' : ℚ} (h : Nearest r v) (h' : Nearest r' v') (hlt : v < v') : r ≤ r' := by
  by_contra hgt
  have hgap : 0 < r - r' := sub_pos.2 (not_le.1 hgt)
  -- Both numbers would be on the wrong side of the middle between `r'` and `r`.
  have hleast : (r - v) ^ 2 ≤ (r' - v) ^ 2 := sq_le_sq.2 (h.least h'.isSize)
  have hleast' : (r' - v') ^ 2 ≤ (r - v') ^ 2 := sq_le_sq.2 (h'.least h.isSize)
  have hmiddle : (r - r') * (2 * (v' - v)) ≤ 0 := by linarith
  have hpos : 0 < (r - r') * (2 * (v' - v)) := mul_pos hgap (by linarith)
  linarith

end Nearest

/-- Whether a mantissa and the two bits behind it stand for a number: the first bit tells whether
half a unit is reached, and the second whether something is left of it then. -/
def Stands (em : ExtendedMantissa) (v : ℚ) : Prop :=
  ∃ rest : ℚ, 0 ≤ rest ∧ rest < 1 / 2 ∧ (em.stickyBit = false ↔ rest = 0) ∧
    v = em.mantissa + (if em.roundBit then 1 / 2 else 0) + rest

theorem stands_exact (m : ℕ) : Stands (.ofMantissaAndAccuracy m .exact) m :=
  ⟨0, le_refl 0, by norm_num, iff_of_true rfl rfl, by simp [ExtendedMantissa.ofMantissaAndAccuracy]⟩

theorem Stands.shiftRightOne {em : ExtendedMantissa} {v : ℚ} (h : Stands em v) :
    Stands em.shiftRightOne (v / 2) := by
  obtain ⟨rest, hnonneg, hlt, hsticky, rfl⟩ := h
  obtain ⟨m, round, sticky⟩ := em
  have hdigit : (m : ℚ) = 2 * (m / 2 : ℕ) + (m % 2 : ℕ) := by
    exact_mod_cast (Nat.div_add_mod m 2).symm
  have hbit : (m % 2 : ℕ) = (if m % 2 != 0 then 1 else 0 : ℚ) := by
    rcases Nat.mod_two_eq_zero_or_one m with hm | hm <;> rw [hm] <;> simp
  refine ⟨(if round then 1 / 4 else 0) + rest / 2, ?_, ?_, ?_, ?_⟩
  · split <;> linarith
  · split <;> linarith
  · change (round || sticky) = false ↔ _
    rw [Bool.or_eq_false_iff, hsticky]
    cases round with
    | false => simp
    | true => exact iff_of_false (fun hboth => by cases hboth.1) (by simp; linarith)
  · change _ = ((m / 2 : ℕ) : ℚ) + (if m % 2 != 0 then 1 / 2 else 0) + _
    dsimp only
    rw [hdigit, hbit]
    split_ifs <;> ring

theorem Stands.shift {em : ExtendedMantissa} {v : ℚ} (h : Stands em v) (n : ℕ) :
    Stands (n.repeat ExtendedMantissa.shiftRightOne em) (v / 2 ^ n) := by
  induction n with
  | zero =>
    rw [pow_zero, div_one]
    exact h
  | succ n ih =>
    rw [pow_succ, ← div_div]
    exact ih.shiftRightOne

theorem Stands.mantissa_le {em : ExtendedMantissa} {v : ℚ} (h : Stands em v) : em.mantissa ≤ v := by
  obtain ⟨rest, hnonneg, -, -, rfl⟩ := h
  split <;> linarith

theorem Stands.abs_sub_le {em : ExtendedMantissa} {v : ℚ} (h : Stands em v) :
    |(em.roundedMantissa : ℚ) - v| ≤ 1 / 2 := by
  obtain ⟨rest, hnonneg, hlt, hsticky, rfl⟩ := h
  obtain ⟨m, _ | _, _ | _⟩ := em
  · obtain rfl : rest = 0 := hsticky.1 rfl
    change |(m : ℚ) - (m + 0 + 0)| ≤ 1 / 2
    norm_num
  · change |(m : ℚ) - (m + 0 + rest)| ≤ 1 / 2
    rw [abs_le]
    constructor <;> linarith
  · obtain rfl : rest = 0 := hsticky.1 rfl
    change |((m + m % 2 : ℕ) : ℚ) - (m + 1 / 2 + 0)| ≤ 1 / 2
    rcases Nat.mod_two_eq_zero_or_one m with hm | hm
    · rw [hm, abs_le]
      push_cast
      constructor <;> linarith
    · rw [hm, abs_le]
      push_cast
      constructor <;> linarith
  · change |((m + 1 : ℕ) : ℚ) - (m + 1 / 2 + rest)| ≤ 1 / 2
    rw [abs_le]
    push_cast
    constructor <;> linarith

/-- No other whole number is nearer than one at most half a unit away. -/
theorem abs_sub_le_of_half {r j : ℤ} {v : ℚ} (h : |(r : ℚ) - v| ≤ 1 / 2) :
    |(r : ℚ) - v| ≤ |(j : ℚ) - v| := by
  by_cases heq : j = r
  · rw [heq]
  · have hone : (1 : ℚ) ≤ |(j : ℚ) - r| := by exact_mod_cast Int.one_le_abs (sub_ne_zero.2 heq)
    have htriangle : |(j : ℚ) - r| ≤ |(j : ℚ) - v| + |(r : ℚ) - v| := by
      rw [abs_sub_comm (r : ℚ) v]
      exact abs_sub_le _ _ _
    linarith

def size : UnpackedFloat → ℚ
  | .finite _ m e _ => m * 2 ^ e
  | _ => 0

theorem size_carry (s : Sign) {r : ℕ} {t : ℤ} (hr : r ≤ 2 ^ 53) (ht : -1074 ≤ t)
    (hleast : 2 ^ 52 ≤ r ∨ t = -1074) : size (carry s r t) = r * 2 ^ t := by
  rw [carry_eq s hr ht hleast]
  split_ifs with hfull hzero
  · rw [hfull, size, zpow_add_one₀ two_ne_zero]
    norm_num
    ring
  · rw [hzero, Nat.cast_zero, zero_mul]
    rfl
  · rfl

theorem isSize_of_le {r : ℕ} {t : ℤ} (hr : r ≤ 2 ^ 53) (ht : -1074 ≤ t) :
    IsSize (r * 2 ^ t) := by
  by_cases hfull : r = 2 ^ 53
  · refine ⟨2 ^ 52, t + 1, by decide, by omega, ?_⟩
    rw [hfull, zpow_add_one₀ two_ne_zero]
    norm_num
    ring
  · exact ⟨r, t, Nat.lt_of_le_of_ne hr hfull, ht, rfl⟩

/-- Rounding gives a double that is nearest to what the digits stand for. -/
theorem nearest_roundWithAccuracy (s : Sign) {m : ℕ} {e : ℤ} {acc : Accuracy}
    (he : e ≤ Format.binary64.targetExponent (totalExponent m e)) {v : ℚ}
    (h : Stands (.ofMantissaAndAccuracy m acc) v) :
    Nearest (size (roundWithAccuracy .binary64 s m e acc)) (v * 2 ^ e) := by
  generalize ht : Format.binary64.targetExponent (totalExponent m e) = t at he
  rw [roundWithAccuracy_eq_carry s acc ht he]
  have hq := mantissa_shiftToExponent m e acc t
  obtain ⟨hlow, hhigh⟩ := roundedMantissa_bounds (shiftToExponent m e acc t).1
  have hstands : Stands (shiftToExponent m e acc t).1 (v / 2 ^ (t - e).toNat) := h.shift _
  have hhalf := hstands.abs_sub_le
  generalize (shiftToExponent m e acc t).1.roundedMantissa = r at hlow hhigh hhalf
  rw [hq] at hlow hhigh
  rw [targetExponent_eq] at ht
  obtain ⟨hmost, hleast⟩ := div_bounds ht.symm he
  have hunit : v * 2 ^ e = v / 2 ^ (t - e).toNat * 2 ^ t := by
    have hte : t = e + ((t - e).toNat : ℤ) := by omega
    generalize (t - e).toNat = k at hte
    rw [hte, zpow_add₀ two_ne_zero, zpow_natCast]
    field_simp
  have hmantissa := hstands.mantissa_le
  rw [hq] at hmantissa
  rw [size_carry s (by omega) (by omega) (by omega), hunit]
  generalize v / 2 ^ (t - e).toNat = w at hhalf hmantissa
  have hpos : (0 : ℚ) < 2 ^ t := by positivity
  have hscale (x : ℚ) : |x * 2 ^ t - w * 2 ^ t| = |x - w| * 2 ^ t := by
    rw [← sub_mul, abs_mul, abs_of_pos hpos]
  refine ⟨isSize_of_le (by omega) (by omega), ?_⟩
  rintro c ⟨n, f, hn, hf, rfl⟩
  rw [hscale]
  rcases le_or_gt t f with hfine | hcoarse
  · -- Such a number is a whole multiple of the last digit.
    have hmultiple : (n : ℚ) * 2 ^ f = ((n * 2 ^ (f - t).toNat : ℕ) : ℤ) * 2 ^ t := by
      have hft : f = (f - t).toNat + t := by omega
      generalize (f - t).toNat = k at hft
      rw [hft, zpow_add₀ two_ne_zero, zpow_natCast]
      push_cast
      ring
    rw [hmultiple, hscale]
    exact mul_le_mul_of_nonneg_right (abs_sub_le_of_half (r := r) hhalf) hpos.le
  · -- Such a number is less than the least one with as many digits, which is not passed.
    have hnormal : 2 ^ 52 ≤ m / 2 ^ (t - e).toNat := by omega
    have hw : (2 : ℚ) ^ 52 ≤ w := le_trans (by exact_mod_cast hnormal) hmantissa
    have hc : (n : ℚ) * 2 ^ f ≤ 2 ^ 52 * 2 ^ t := by
      calc (n : ℚ) * 2 ^ f ≤ 2 ^ 53 * 2 ^ (t - 1) :=
            mul_le_mul (by exact_mod_cast hn.le) (zpow_le_zpow_right₀ one_le_two (by omega))
              (by positivity) (by positivity)
        _ = 2 ^ 52 * 2 ^ t := by
            rw [zpow_sub_one₀ two_ne_zero]
            ring
    have hnear := abs_sub_le_of_half (r := r) (j := 2 ^ 52) hhalf
    rw [Int.cast_natCast, Int.cast_pow, Int.cast_ofNat, abs_of_nonpos (sub_nonpos.2 hw)] at hnear
    have hbelow : 2 ^ 52 * 2 ^ t ≤ w * 2 ^ t := mul_le_mul_of_nonneg_right hw hpos.le
    rw [abs_of_nonpos (sub_nonpos.2 (hc.trans hbelow))]
    calc |(r : ℚ) - w| * 2 ^ t ≤ -(2 ^ 52 - w) * 2 ^ t := mul_le_mul_of_nonneg_right hnear hpos.le
      _ ≤ -(n * 2 ^ f - w * 2 ^ t) := by linarith

theorem nearest_round (s : Sign) {m : ℕ} (hm : 0 < m) (e : ℤ) :
    Nearest (size (UnpackedFloat.round .binary64 s m e)) (m * 2 ^ e) := by
  obtain ⟨k, hround, hdigits, -⟩ := exists_round_eq s hm e
  have hvalue : (m : ℚ) * 2 ^ e = ((m <<< k : ℕ) : ℚ) * 2 ^ (e - k) := by
    rw [Nat.shiftLeft_eq, zpow_sub₀ two_ne_zero, zpow_natCast]
    push_cast
    field_simp
  rw [hround, hvalue]
  exact nearest_roundWithAccuracy s hdigits (stands_exact _)

theorem stands_fraction (m : ℕ) {n : ℕ} (hn : 0 < n) :
    Stands (.ofMantissaAndAccuracy (m / n) (accuracyOfFraction (m % n) n)) (m / n) := by
  have hpos : (0 : ℚ) < n := by exact_mod_cast hn
  have hlt : ((m % n : ℕ) : ℚ) < n := by exact_mod_cast Nat.mod_lt m hn
  have hsplit : (m : ℚ) / n = (m / n : ℕ) + (m % n : ℕ) / n := by
    rw [div_eq_iff hpos.ne', add_mul, div_mul_cancel₀ _ hpos.ne']
    exact_mod_cast (Nat.div_add_mod' m n).symm
  rw [hsplit, accuracyOfFraction]
  generalize m % n = rest at hlt
  split
  · rename_i hzero
    rw [hzero, Nat.cast_zero, zero_div, add_zero]
    exact stands_exact _
  · rename_i hne
    have hrest : (0 : ℚ) < rest / n := div_pos (by exact_mod_cast Nat.pos_of_ne_zero hne) hpos
    cases hcompare : compare (2 * rest) n with
    | lt =>
      have hhalf : 2 * (rest : ℚ) < n := by exact_mod_cast Nat.compare_eq_lt.1 hcompare
      refine ⟨rest / n, hrest.le, ?_, iff_of_false nofun hrest.ne', ?_⟩
      · rw [div_lt_div_iff₀ hpos two_pos]
        linarith
      · exact (congrArg (· + _) (add_zero _)).symm
    | eq =>
      have hhalf : 2 * (rest : ℚ) = n := by exact_mod_cast Nat.compare_eq_eq.1 hcompare
      refine ⟨0, le_refl 0, by norm_num, iff_of_true rfl rfl, ?_⟩
      have hfrac : (rest : ℚ) / n = 1 / 2 := by
        rw [div_eq_div_iff hpos.ne' two_ne_zero]
        linarith
      rw [hfrac]
      exact (add_zero _).symm
    | gt =>
      have hhalf : (n : ℚ) < 2 * rest := by exact_mod_cast Nat.compare_eq_gt.1 hcompare
      have hmore : 1 / 2 < (rest : ℚ) / n := by
        rw [div_lt_div_iff₀ two_pos hpos]
        linarith
      have hless : (rest : ℚ) / n < 1 := (div_lt_one hpos).2 hlt
      refine ⟨rest / n - 1 / 2, by linarith, by linarith, iff_of_false nofun (by linarith), ?_⟩
      change _ = ((m / n : ℕ) : ℚ) + 1 / 2 + (rest / n - 1 / 2)
      ring

end ProviderScout.Double
