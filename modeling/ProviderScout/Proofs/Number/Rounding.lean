import Mathlib
import ProviderScout.Number.Quantity

/-!
Rounding to doubles. An operation computes a mantissa with enough digits, cuts off those that are
too many and rounds up or not; `IsRounding` bounds where the leading digit of the outcome stands by
where that of the exact result does.
-/

namespace ProviderScout.Double

open Float.Model (Format UnpackedFloat totalExponent)
open Float.Model.UnpackedFloat

theorem mantissa_repeat_shiftRightOne (em : ExtendedMantissa) (n : Nat) :
    (n.repeat ExtendedMantissa.shiftRightOne em).mantissa = em.mantissa / 2 ^ n := by
  induction n with
  | zero => exact (Nat.div_one _).symm
  | succ n ih =>
    change (n.repeat ExtendedMantissa.shiftRightOne em).mantissa / 2 = _
    rw [ih, Nat.div_div_eq_div_mul, Nat.pow_succ]

theorem mantissa_shiftToExponent (m : Nat) (e : Int) (acc : Accuracy) (t : Int) :
    (shiftToExponent m e acc t).1.mantissa = m / 2 ^ (t - e).toNat := by
  have hm : (ExtendedMantissa.ofMantissaAndAccuracy m acc).mantissa = m := by
    rcases acc with _ | (_ | _ | _) <;> rfl
  have h := mantissa_repeat_shiftRightOne (.ofMantissaAndAccuracy m acc) (t - e).toNat
  rwa [hm] at h

theorem exponent_shiftToExponent (m : Nat) {e t : Int} (acc : Accuracy) (h : e ≤ t) :
    (shiftToExponent m e acc t).2 = t := by
  change e + ((t - e).toNat : Int) = t
  omega

theorem roundedMantissa_bounds (em : ExtendedMantissa) :
    em.mantissa ≤ em.roundedMantissa ∧ em.roundedMantissa ≤ em.mantissa + 1 := by
  obtain ⟨m, _ | _, _ | _⟩ := em
  · exact ⟨Nat.le_refl m, Nat.le_succ m⟩
  · exact ⟨Nat.le_refl m, Nat.le_succ m⟩
  · change m ≤ m + m % 2 ∧ m + m % 2 ≤ m + 1
    omega
  · exact ⟨Nat.le_succ m, Nat.le_refl _⟩

theorem log2_le_of_lt {m k : Nat} (h : m < 2 ^ (k + 1)) : m.log2 ≤ k := by
  by_cases hm : m = 0
  · rw [hm, Nat.log2_zero]
    exact Nat.zero_le k
  · exact Nat.le_of_lt_succ ((Nat.log2_lt hm).2 h)

theorem targetExponent_eq (place : Int) :
    Format.binary64.targetExponent place = max (place - 53) (-1074) := rfl

/-- Digits cut off a mantissa on the way to the exponent it should have leave at most 53, and 53 if
the exponent is not the least there is. -/
theorem div_bounds {m : Nat} {e t : Int} (ht : t = max (totalExponent m e - 53) (-1074))
    (he : e ≤ t) :
    m / 2 ^ (t - e).toNat < 2 ^ 53 ∧
      (2 ^ 52 ≤ m / 2 ^ (t - e).toNat ∨ totalExponent m e < -1021) := by
  have hlt : m < 2 ^ (m.log2 + 1) := Nat.lt_log2_self
  generalize hs : (t - e).toNat = s
  rw [totalExponent] at ht ⊢
  have hle : m.log2 + 1 ≤ 53 + s := by omega
  constructor
  · rw [Nat.div_lt_iff_lt_mul (Nat.two_pow_pos s), ← Nat.pow_add]
    exact Nat.lt_of_lt_of_le hlt (Nat.pow_le_pow_right Nat.two_pos hle)
  · by_cases hsmall : m.log2 + 1 + e < -1021
    · exact .inr hsmall
    · left
      have hlog : m.log2 = 52 + s := by omega
      have hm : m ≠ 0 := by
        rintro rfl
        rw [Nat.log2_zero] at hlog
        omega
      rw [Nat.le_div_iff_mul_le (Nat.two_pow_pos s), ← Nat.pow_add, ← hlog]
      exact Nat.log2_self_le hm

/-- Whether a mantissa and an exponent are the only ones a double has for its number, as far as
they are not too large for one. -/
def Canonical (m : Nat) (e : Int) : Prop := m < 2 ^ 53 ∧ -1074 ≤ e ∧ (2 ^ 52 ≤ m ∨ e = -1074)

/-- What a number of a sign, whose leading digit has a place, can be rounded to. -/
inductive IsRounding (place : Int) (s : Sign) : UnpackedFloat → Prop where
  | zero (hplace : place < -1021) : IsRounding place s (.zero s)
  | finite {m : Nat} {e : Int} (hm : 0 < m) (hform : Canonical m e)
      (hmost : totalExponent m e ≤ max place (-1074) + 1)
      (hleast : -1021 ≤ place → place ≤ totalExponent m e) : IsRounding place s (.finite s m e hm)

/-- The second half of rounding: a mantissa that has got one digit too many loses its last one. -/
def carry (s : Sign) (r : Nat) (t : Int) : UnpackedFloat :=
  let n := shiftToTargetExponent .binary64 r t .exact
  if h : n.1.mantissa = 0 then .zero s else .finite s n.1.mantissa n.2 (Nat.pos_of_ne_zero h)

theorem roundWithAccuracy_eq_carry (s : Sign) {m : Nat} {e t : Int} (acc : Accuracy)
    (ht : Format.binary64.targetExponent (totalExponent m e) = t) (he : e ≤ t) :
    roundWithAccuracy .binary64 s m e acc =
      carry s (shiftToExponent m e acc t).1.roundedMantissa t := by
  simp only [roundWithAccuracy, shiftToTargetExponent, ht, exponent_shiftToExponent m acc he]
  rfl

theorem carry_eq (s : Sign) {r : Nat} {t : Int} (hr : r ≤ 2 ^ 53) (ht : -1074 ≤ t)
    (hleast : 2 ^ 52 ≤ r ∨ t = -1074) :
    carry s r t =
      if r = 2 ^ 53 then .finite s (2 ^ 52) (t + 1) (by decide)
      else if h : r = 0 then .zero s else .finite s r t (Nat.pos_of_ne_zero h) := by
  by_cases hfull : r = 2 ^ 53
  · -- All 53 digits were ones and have carried into one more, so the last one is cut off.
    subst hfull
    have htarget : Format.binary64.targetExponent (totalExponent (2 ^ 53) t) = t + 1 := by
      rw [targetExponent_eq, totalExponent, Nat.log2_two_pow]
      omega
    have hm := mantissa_shiftToExponent (2 ^ 53) t .exact (t + 1)
    have he := exponent_shiftToExponent (2 ^ 53) .exact (Int.le_add_one (Int.le_refl t))
    have hone : (t + 1 - t).toNat = 1 := by omega
    rw [hone] at hm
    rw [if_pos rfl]
    simp only [carry, shiftToTargetExponent, htarget, hm, he]
    rfl
  · have hlog : r.log2 ≤ 52 := log2_le_of_lt (Nat.lt_of_le_of_ne hr hfull)
    have htarget : Format.binary64.targetExponent (totalExponent r t) = t := by
      rw [targetExponent_eq, totalExponent]
      rcases hleast with hnormal | hleast
      · have hlog' : 52 ≤ r.log2 := (Nat.le_log2 (by omega)).2 hnormal
        omega
      · omega
    have hm := mantissa_shiftToExponent r t .exact t
    have he := exponent_shiftToExponent r .exact (Int.le_refl t)
    rw [Int.sub_self, Int.toNat_zero, Nat.pow_zero, Nat.div_one] at hm
    rw [if_neg hfull]
    simp only [carry, shiftToTargetExponent, htarget, hm, he]

theorem place_of_rounded {m r : Nat} {e t : Int} (ht : t = max (totalExponent m e - 53) (-1074))
    (he : e ≤ t) (hlow : m / 2 ^ (t - e).toNat ≤ r) (hhigh : r ≤ m / 2 ^ (t - e).toNat + 1) :
    totalExponent r t ≤ max (totalExponent m e) (-1074) + 1 ∧
      (-1021 ≤ totalExponent m e → totalExponent m e ≤ totalExponent r t) := by
  have hcut := div_bounds ht he
  have hlt : m < 2 ^ (m.log2 + 1) := Nat.lt_log2_self
  simp only [totalExponent] at ht hcut ⊢
  generalize hs : (t - e).toNat = s at hlow hhigh hcut
  constructor
  · -- If all digits are cut off, rounding up leaves at most the last digit there can be.
    by_cases hall : m.log2 + 1 ≤ s
    · have hzero : m / 2 ^ s = 0 :=
        Nat.div_eq_of_lt (Nat.lt_of_lt_of_le hlt (Nat.pow_le_pow_right Nat.two_pos hall))
      have hlog : r.log2 ≤ 0 := log2_le_of_lt (by omega)
      omega
    · have hdiv : m / 2 ^ s < 2 ^ (m.log2 + 1 - s) := by
        rw [Nat.div_lt_iff_lt_mul (Nat.two_pow_pos s), ← Nat.pow_add]
        exact Nat.lt_of_lt_of_le hlt (Nat.pow_le_pow_right Nat.two_pos (by omega))
      have hlog : r.log2 ≤ m.log2 + 1 - s :=
        log2_le_of_lt (Nat.lt_of_le_of_lt (by omega) (Nat.pow_lt_pow_succ Nat.one_lt_two))
      omega
  · intro hplace
    have hnormal : 2 ^ 52 ≤ r := by omega
    have hlog : 52 ≤ r.log2 := (Nat.le_log2 (by omega)).2 hnormal
    omega

theorem isRounding_roundWithAccuracy (s : Sign) {m : Nat} {e : Int} (acc : Accuracy)
    (he : e ≤ Format.binary64.targetExponent (totalExponent m e)) :
    IsRounding (totalExponent m e) s (roundWithAccuracy .binary64 s m e acc) := by
  generalize ht : Format.binary64.targetExponent (totalExponent m e) = t at he
  rw [roundWithAccuracy_eq_carry s acc ht he]
  have hq := mantissa_shiftToExponent m e acc t
  obtain ⟨hlow, hhigh⟩ := roundedMantissa_bounds (shiftToExponent m e acc t).1
  generalize (shiftToExponent m e acc t).1.roundedMantissa = r at hlow hhigh ⊢
  rw [hq] at hlow hhigh
  rw [targetExponent_eq] at ht
  obtain ⟨hmost, hleast⟩ := div_bounds ht.symm he
  obtain ⟨hplace, hkept⟩ := place_of_rounded ht.symm he hlow hhigh
  rw [carry_eq s (by omega) (by omega) (by omega)]
  split
  · rename_i hfull
    have hnext : totalExponent (2 ^ 52) (t + 1) = totalExponent (2 ^ 53) t := by
      simp only [totalExponent, Nat.log2_two_pow]
      omega
    rw [hfull, ← hnext] at hplace hkept
    exact .finite _ ⟨by decide, by omega, .inl (Nat.le_refl _)⟩ hplace hkept
  · split
    · rename_i hzero
      exact .zero (by omega)
    · exact .finite _ ⟨by omega, by omega, by omega⟩ hplace hkept

/-- Whether a number has the only form a double of its size can have. -/
def Rounded : UnpackedFloat → Prop
  | .finite _ m e _ => Canonical m e
  | _ => True

/-- What a double keeps of a rounded number: one that is too large becomes infinite. -/
def held : UnpackedFloat → UnpackedFloat
  | .finite s m e h => if 972 ≤ e then .infinity s else .finite s m e h
  | u => u

theorem unpackSign_packComponents (s : Sign) (e : BitVec 11) (m : BitVec 52) :
    Sign.ofBitVec (unpackSign (packComponents .binary64 s e m)) = s := by
  simp only [unpackSign, packComponents, BitVec.extractLsb]
  rw [BitVec.extractLsb'_append_eq_of_le (by omega), BitVec.extractLsb'_append_eq_of_le (by omega)]
  cases s <;> rfl

theorem toNat_one_append (m : BitVec 52) : (1#1 ++ m).toNat = 2 ^ 52 + m.toNat := by
  rw [BitVec.toNat_append, ← Nat.shiftLeft_add_eq_or_of_lt m.isLt]
  rfl

theorem unpack_pack_normal (s : Sign) {m : Nat} {e : Int} (h : 0 < m) (hm : m < 2 ^ 53)
    (hnormal : 2 ^ 52 ≤ m) (hleast : -1074 ≤ e) (hmost : e ≤ 971) :
    unpack .binary64 (pack .binary64 (.finite s m e h)) = .finite s m e h := by
  have hlog : m.log2 + 1 = Format.binary64.mantissaBits :=
    congrArg Nat.succ ((Nat.log2_eq_iff (by omega)).2 ⟨hnormal, hm⟩)
  have hb : (e + Format.binary64.exponentBias + Format.binary64.mantissaBitsWithoutImplicit).toNat =
      (e + 1075).toNat := congrArg Int.toNat (Int.add_assoc e 1023 52)
  generalize hbiased : (e + 1075).toNat = biased at hb
  have hexponent : (BitVec.ofNat 11 biased).toNat = biased := by
    rw [BitVec.toNat_ofNat]
    omega
  have hinfinite : BitVec.ofNat 11 biased ≠ -1#11 := fun heq => by
    have hnat := hexponent.symm.trans (congrArg BitVec.toNat heq)
    change biased = 2047 at hnat
    omega
  have hzero : BitVec.ofNat 11 biased ≠ 0#11 := fun heq => by
    have hnat := hexponent.symm.trans (congrArg BitVec.toNat heq)
    change biased = 0 at hnat
    omega
  have hmantissa : (1#1 ++ BitVec.ofNat 52 m).toNat = m := by
    rw [toNat_one_append, BitVec.toNat_ofNat]
    omega
  rw [UnpackedFloat.pack]
  simp only [hb]
  rw [if_neg (by change ¬ 2048 ≤ biased + 1; omega), if_pos hlog, UnpackedFloat.unpack]
  simp only [unpackMantissa_packComponents, unpackExponent_packComponents,
    unpackSign_packComponents, if_neg hinfinite, if_neg hzero, hmantissa, hexponent]
  congr 1
  change (biased : Int) - (1023 + 52) = e
  omega

theorem unpack_pack_subnormal (s : Sign) {m : Nat} (h : 0 < m) (hm : m < 2 ^ 52) :
    unpack .binary64 (pack .binary64 (.finite s m (-1074) h)) = .finite s m (-1074) h := by
  have hlog : m.log2 + 1 ≠ Format.binary64.mantissaBits := by
    have hlt : m.log2 < 52 := (Nat.log2_lt (by omega)).2 hm
    change m.log2 + 1 ≠ 53
    omega
  have hmantissa : (BitVec.ofNat 52 m).toNat = m := by
    rw [BitVec.toNat_ofNat]
    omega
  have hne : BitVec.ofNat 52 m ≠ 0#52 := fun heq => by
    have hnat := hmantissa.symm.trans (congrArg BitVec.toNat heq)
    change m = 0 at hnat
    omega
  rw [UnpackedFloat.pack]
  simp only
  rw [if_neg (by decide), if_neg hlog, UnpackedFloat.unpack]
  simp only [unpackMantissa_packComponents, unpackExponent_packComponents,
    unpackSign_packComponents, hmantissa]
  rw [if_neg (by decide), if_pos trivial, dif_neg hne]
  rfl

theorem unpack_pack {u : UnpackedFloat} (h : Rounded u) :
    unpack .binary64 (pack .binary64 u) = held u := by
  cases u with
  | notANumber => rfl
  | infinity s => cases s <;> rfl
  | zero s => cases s <;> rfl
  | finite s m e hm =>
    obtain ⟨hmost, hleast, hform⟩ := h
    rw [held]
    split
    · rename_i hlarge
      have hb : 2 ^ Format.binary64.exponentBits ≤ (e + Format.binary64.exponentBias +
          Format.binary64.mantissaBitsWithoutImplicit).toNat + 1 := by
        change 2048 ≤ (e + 1023 + 52).toNat + 1
        omega
      rw [UnpackedFloat.pack]
      simp only [if_pos hb]
      cases s <;> rfl
    · by_cases hnormal : 2 ^ 52 ≤ m
      · exact unpack_pack_normal s hm hmost hnormal hleast (by omega)
      · obtain rfl : e = -1074 := hform.resolve_left hnormal
        exact unpack_pack_subnormal s hm (by omega)

theorem rounded_unpack (b : BitVec Format.binary64.numBits) : Rounded (unpack .binary64 b) := by
  have hm : (unpackMantissa b).toNat < 2 ^ 52 := (unpackMantissa b).isLt
  have he : (unpackExponent b).toNat < 2048 := (unpackExponent b).isLt
  rw [UnpackedFloat.unpack]
  split
  · split <;> exact trivial
  · split
    · rename_i hzero
      split
      · trivial
      · have hexponent : (unpackExponent b).toNat = 0 := congrArg BitVec.toNat hzero
        have hleast : ((unpackExponent b).toNat : Int) - (Format.binary64.exponentBias +
            Format.binary64.mantissaBitsWithoutImplicit) + 1 = -1074 := by
          rw [hexponent]
          rfl
        exact ⟨Nat.lt_trans hm (by decide), Int.le_of_eq hleast.symm, .inr hleast⟩
    · rename_i hzero
      have hexponent : (unpackExponent b).toNat ≠ 0 := fun hnat => hzero (BitVec.eq_of_toNat_eq hnat)
      have happend := toNat_one_append (unpackMantissa b)
      refine ⟨?_, ?_, .inl ?_⟩
      · rw [happend]; omega
      · change -1074 ≤ ((unpackExponent b).toNat : Int) - (1023 + 52)
        omega
      · rw [happend]; omega

theorem held_unpack (b : BitVec Format.binary64.numBits) :
    held (unpack .binary64 b) = unpack .binary64 b := by
  have he : (unpackExponent b).toNat < 2048 := (unpackExponent b).isLt
  rw [UnpackedFloat.unpack]
  split
  · split <;> rfl
  · rename_i hinfinite
    split
    · rename_i hzero
      split
      · rfl
      · rw [hzero]
        rfl
    · have hexponent : (unpackExponent b).toNat ≠ 2047 := fun hnat =>
        hinfinite (BitVec.eq_of_toNat_eq hnat)
      apply if_neg
      change ¬ 972 ≤ ((unpackExponent b).toNat : Int) - (1023 + 52)
      omega

theorem rounded_of_isRounding {place : Int} {s : Sign} {u : UnpackedFloat}
    (h : IsRounding place s u) : Rounded u := by
  cases h with
  | zero hplace => trivial
  | finite hm hform hmost hleast => exact hform

theorem totalExponent_shiftLeft {m : Nat} (hm : 0 < m) (e : Int) (n : Nat) :
    totalExponent (m <<< n) (e - n) = totalExponent m e := by
  have hlog : (m <<< n).log2 = m.log2 + n := by
    rw [Nat.shiftLeft_eq, Nat.log2_eq_iff (Nat.ne_of_gt (Nat.mul_pos hm (Nat.two_pow_pos n)))]
    constructor
    · rw [Nat.pow_add]
      exact Nat.mul_le_mul_right _ (Nat.log2_self_le (Nat.ne_of_gt hm))
    · rw [Nat.add_right_comm, Nat.pow_add]
      exact Nat.mul_lt_mul_of_pos_right Nat.lt_log2_self (Nat.two_pow_pos n)
  rw [totalExponent, totalExponent, hlog]
  omega

/-- Rounding a mantissa appends zeros until it has enough digits. -/
theorem exists_round_eq (s : Sign) {m : Nat} (hm : 0 < m) (e : Int) :
    ∃ k : Nat, UnpackedFloat.round .binary64 s m e =
        roundWithAccuracy .binary64 s (m <<< k) (e - k) .exact ∧
      e - k ≤ Format.binary64.targetExponent (totalExponent (m <<< k) (e - k)) ∧
      totalExponent (m <<< k) (e - k) = totalExponent m e := by
  generalize ht : Format.binary64.targetExponent (totalExponent m e) = t
  have hplace := totalExponent_shiftLeft hm e (e - t).toNat
  refine ⟨(e - t).toNat, ?_, ?_, hplace⟩
  · simp only [UnpackedFloat.round, decreaseExponent, ht]
  · rw [hplace, ht]
    omega

theorem isRounding_round (s : Sign) {m : Nat} (hm : 0 < m) (e : Int) :
    IsRounding (totalExponent m e) s (UnpackedFloat.round .binary64 s m e) := by
  obtain ⟨k, hround, hdigits, hplace⟩ := exists_round_eq s hm e
  rw [hround, ← hplace]
  exact isRounding_roundWithAccuracy s .exact hdigits

theorem normalize_of_pos {n : Nat} (hn : 0 < n) (e : Int) (s : Sign) :
    UnpackedFloat.normalize .binary64 n e s = UnpackedFloat.round .binary64 .positive n e := by
  rw [UnpackedFloat.normalize, Int.compare_eq_gt.2 (by omega), Int.toNat_natCast]

theorem isRounding_normalize {m : Int} (hm : m ≠ 0) (e : Int) (s : Sign) :
    IsRounding (totalExponent m.natAbs e) (if m < 0 then .negative else .positive)
      (UnpackedFloat.normalize .binary64 m e s) := by
  rcases Int.lt_or_gt_of_ne hm with hneg | hpos
  · have hround :
        UnpackedFloat.normalize .binary64 m e s =
          UnpackedFloat.round .binary64 .negative m.natAbs e := by
      have hnat : (-m).toNat = m.natAbs := by omega
      rw [UnpackedFloat.normalize, Int.compare_eq_lt.2 hneg, ← hnat]
    rw [hround, if_pos hneg]
    exact isRounding_round .negative (by omega) e
  · obtain ⟨n, rfl⟩ := Int.eq_ofNat_of_zero_le hpos.le
    rw [normalize_of_pos (by omega), if_neg (by omega), Int.natAbs_natCast]
    exact isRounding_round .positive (by omega) e

theorem rounded_normalize (m e : Int) (s : Sign) :
    Rounded (UnpackedFloat.normalize .binary64 m e s) := by
  by_cases hm : m = 0
  · rw [hm]
    trivial
  · exact rounded_of_isRounding (isRounding_normalize hm e s)

theorem totalExponent_mul {m n : Nat} (hm : 0 < m) (hn : 0 < n) (d e : Int) :
    totalExponent m d + totalExponent n e - 1 ≤ totalExponent (m * n) (d + e) ∧
      totalExponent (m * n) (d + e) ≤ totalExponent m d + totalExponent n e := by
  have hlow : m.log2 + n.log2 ≤ (m * n).log2 := by
    rw [Nat.le_log2 (Nat.ne_of_gt (Nat.mul_pos hm hn)), Nat.pow_add]
    exact Nat.mul_le_mul (Nat.log2_self_le (Nat.ne_of_gt hm)) (Nat.log2_self_le (Nat.ne_of_gt hn))
  have hhigh : (m * n).log2 ≤ m.log2 + n.log2 + 1 := by
    apply log2_le_of_lt
    have hpow : m.log2 + n.log2 + 1 + 1 = m.log2 + 1 + (n.log2 + 1) := by omega
    rw [hpow, Nat.pow_add]
    exact Nat.mul_lt_mul'' Nat.lt_log2_self Nat.lt_log2_self
  simp only [totalExponent]
  omega

theorem le_targetExponent_mul {m n : Nat} {d e : Int} (hm : 0 < m) (hn : 0 < n)
    (hd : Canonical m d) (he : Canonical n e) :
    d + e ≤ Format.binary64.targetExponent (totalExponent (m * n) (d + e)) := by
  have hplace := (totalExponent_mul hm hn d e).1
  rw [targetExponent_eq]
  have hplaces : 52 ≤ m.log2 ∨ d = -1074 := hd.2.2.imp_left (Nat.le_log2 (by omega)).2
  have hplaces' : 52 ≤ n.log2 ∨ e = -1074 := he.2.2.imp_left (Nat.le_log2 (by omega)).2
  have hleast := hd.2.1
  have hleast' := he.2.1
  simp only [totalExponent] at hplace ⊢
  omega

theorem isRounding_mul (s s' : Sign) {m n : Nat} {d e : Int} (hm : 0 < m) (hn : 0 < n)
    (hd : Canonical m d) (he : Canonical n e) :
    IsRounding (totalExponent (m * n) (d + e)) (s * s')
      (mul .binary64 (.finite s m d hm) (.finite s' n e hn)) :=
  isRounding_roundWithAccuracy _ .exact (le_targetExponent_mul hm hn hd he)

/-- A quotient has enough digits, and its leading one has the place of the difference or the one
after it. -/
theorem divCore_bounds {m n : Nat} {d e : Int} (hm : 0 < m) (hn : 0 < n) :
    let q := divCore .binary64 m d n e
    q.2.1 ≤ Format.binary64.targetExponent (totalExponent q.1 q.2.1) ∧
      totalExponent q.1 q.2.1 ≤ max (totalExponent m d - totalExponent n e + 1) (-1073) := by
  simp only [divCore, targetExponent_eq, Nat.shiftLeft_eq, totalExponent]
  generalize hx : min (d - e) (max ((m.log2 : Int) + 1 + d - (n.log2 + 1 + e) - 53) (-1074)) = x
  generalize hs : (d - e - x).toNat = s
  -- The quotient of a mantissa of `m.log2 + s + 1` digits by one of `n.log2 + 1`.
  have hlow : m.log2 + s ≤ n.log2 ∨ m.log2 + s - n.log2 - 1 ≤ (m * 2 ^ s / n).log2 := by
    by_cases hle : m.log2 + s ≤ n.log2
    · exact .inl hle
    · right
      have hpow : m.log2 + s = m.log2 + s - n.log2 - 1 + (n.log2 + 1) := by omega
      have hq : 2 ^ (m.log2 + s - n.log2 - 1) ≤ m * 2 ^ s / n := by
        rw [Nat.le_div_iff_mul_le hn]
        calc 2 ^ (m.log2 + s - n.log2 - 1) * n
            ≤ 2 ^ (m.log2 + s - n.log2 - 1) * 2 ^ (n.log2 + 1) :=
              Nat.mul_le_mul_left _ (Nat.le_of_lt Nat.lt_log2_self)
          _ = 2 ^ m.log2 * 2 ^ s := by rw [← Nat.pow_add, ← hpow, Nat.pow_add]
          _ ≤ m * 2 ^ s := Nat.mul_le_mul_right _ (Nat.log2_self_le (Nat.ne_of_gt hm))
      exact (Nat.le_log2 (Nat.ne_of_gt (Nat.lt_of_lt_of_le (Nat.two_pow_pos _) hq))).2 hq
  have hhigh : (m * 2 ^ s / n).log2 ≤ m.log2 + s - n.log2 := by
    apply log2_le_of_lt
    rw [Nat.div_lt_iff_lt_mul hn]
    calc m * 2 ^ s
        < 2 ^ (m.log2 + 1) * 2 ^ s := Nat.mul_lt_mul_of_pos_right Nat.lt_log2_self (Nat.two_pow_pos s)
      _ ≤ 2 ^ (m.log2 + s - n.log2 + 1) * 2 ^ n.log2 := by
        rw [← Nat.pow_add, ← Nat.pow_add]
        exact Nat.pow_le_pow_right Nat.two_pos (by omega)
      _ ≤ 2 ^ (m.log2 + s - n.log2 + 1) * n :=
        Nat.mul_le_mul_left _ (Nat.log2_self_le (Nat.ne_of_gt hn))
  omega

theorem exists_isRounding_div (s s' : Sign) {m n : Nat} {d e : Int} (hm : 0 < m) (hn : 0 < n) :
    ∃ place, place ≤ max (totalExponent m d - totalExponent n e + 1) (-1073) ∧
      IsRounding place (s / s') (div .binary64 (.finite s m d hm) (.finite s' n e hn)) := by
  obtain ⟨hdigits, hplace⟩ := divCore_bounds (d := d) (e := e) hm hn
  exact ⟨_, hplace, isRounding_roundWithAccuracy _ _ hdigits⟩

theorem rounded_add {x y : UnpackedFloat} (hx : Rounded x) (hy : Rounded y) :
    Rounded (add .binary64 x y) := by
  cases x with
  | notANumber => trivial
  | infinity s =>
    cases y with
    | infinity s' =>
      rw [add]
      split <;> trivial
    | _ => trivial
  | zero s =>
    cases y with
    | zero s' =>
      rw [add]
      split <;> trivial
    | finite s' n e hn => exact hy
    | _ => trivial
  | finite s m d hm =>
    cases y with
    | finite s' n e hn => exact rounded_normalize _ _ _
    | zero s' => exact hx
    | _ => trivial

theorem rounded_neg {x : UnpackedFloat} (h : Rounded x) : Rounded x.neg := by
  cases x with
  | finite s m e hm => exact h
  | _ => trivial

theorem sub_eq_add_neg (x y : UnpackedFloat) : sub .binary64 x y = add .binary64 x y.neg := by
  have hneg (s : Sign) (n : Int) : (-s).apply n = -(s.apply n) := by
    cases s with
    | negative => exact (Int.neg_neg n).symm
    | positive => rfl
  cases x with
  | finite s m d hm =>
    cases y with
    | finite s' n e hn => simp only [sub, add, neg, hneg, Int.sub_eq_add_neg]
    | _ => rfl
  | _ => cases y <;> rfl

theorem rounded_mul {x y : UnpackedFloat} (hx : Rounded x) (hy : Rounded y) :
    Rounded (mul .binary64 x y) := by
  cases x with
  | finite s m d hm =>
    cases y with
    | finite s' n e hn => exact rounded_of_isRounding (isRounding_mul s s' hm hn hx hy)
    | _ => trivial
  | _ => cases y <;> trivial

theorem rounded_div {x y : UnpackedFloat} : Rounded (div .binary64 x y) := by
  cases x with
  | finite s m d hm =>
    cases y with
    | finite s' n e hn =>
      obtain ⟨_, _, h⟩ := exists_isRounding_div s s' (d := d) (e := e) hm hn
      exact rounded_of_isRounding h
    | _ => trivial
  | _ => cases y <;> trivial

theorem totalExponent_mono {m n : Nat} (h : m ≤ n) (e : Int) :
    totalExponent m e ≤ totalExponent n e := by
  have hlog : m.log2 ≤ n.log2 := log2_le_of_lt (Nat.lt_of_le_of_lt h Nat.lt_log2_self)
  rw [totalExponent, totalExponent]
  omega

theorem totalExponent_add_le (m n : Nat) (e : Int) :
    totalExponent (m + n) e ≤ max (totalExponent m e) (totalExponent n e) + 1 := by
  have hm : m < 2 ^ (max m.log2 n.log2 + 1) :=
    Nat.lt_of_lt_of_le Nat.lt_log2_self (Nat.pow_le_pow_right Nat.two_pos (by omega))
  have hn : n < 2 ^ (max m.log2 n.log2 + 1) :=
    Nat.lt_of_lt_of_le Nat.lt_log2_self (Nat.pow_le_pow_right Nat.two_pos (by omega))
  have hlog : (m + n).log2 ≤ max m.log2 n.log2 + 1 := by
    apply log2_le_of_lt
    rw [Nat.pow_succ]
    omega
  simp only [totalExponent]
  omega

def aligned (m : Nat) (e t : Int) : Nat := (decreaseExponent m e t).1

theorem totalExponent_aligned {m : Nat} (hm : 0 < m) {e t : Int} (h : t ≤ e) :
    totalExponent (aligned m e t) t = totalExponent m e := by
  have he := totalExponent_shiftLeft hm e (e - t).toNat
  have ht : e - ((e - t).toNat : Int) = t := by omega
  rwa [ht] at he

theorem normalize_natCast (n : Nat) (e : Int) :
    UnpackedFloat.normalize .binary64 n e .positive = .zero .positive ∨
      IsRounding (totalExponent n e) .positive
        (UnpackedFloat.normalize .binary64 n e .positive) := by
  by_cases hn : n = 0
  · rw [hn]
    exact .inl rfl
  · have h := isRounding_normalize (Int.natCast_ne_zero.2 hn) e .positive
    rw [if_neg (by omega), Int.natAbs_natCast] at h
    exact .inr h

theorem isRounding_add {m n : Nat} (d e : Int) (hm : 0 < m) (hn : 0 < n) :
    let u := add .binary64 (.finite .positive m d hm) (.finite .positive n e hn)
    u = .zero .positive ∨ ∃ place ≤ max (totalExponent m d) (totalExponent n e) + 1,
      IsRounding place .positive u := by
  have hplace := totalExponent_add_le (aligned m d (min d e)) (aligned n e (min d e)) (min d e)
  rw [totalExponent_aligned hm (Int.min_le_left d e),
    totalExponent_aligned hn (Int.min_le_right d e)] at hplace
  rcases normalize_natCast (aligned m d (min d e) + aligned n e (min d e)) (min d e) with
    hzero | hround
  · exact .inl hzero
  · exact .inr ⟨_, hplace, hround⟩

/-- Whether a number with this mantissa and exponent is at most the other, both in their only
form. -/
def NotAbove (n : Nat) (e : Int) (m : Nat) (d : Int) : Prop := e < d ∨ e = d ∧ n ≤ m

theorem totalExponent_le_of_notAbove {m n : Nat} {d e : Int} (hn : Canonical n e)
    (hm : Canonical m d) (h : NotAbove n e m d) : totalExponent n e ≤ totalExponent m d := by
  rcases h with hlt | ⟨rfl, hle⟩
  · have hnormal : 2 ^ 52 ≤ m := hm.2.2.resolve_right (Int.ne_of_gt (Int.lt_of_le_of_lt hn.2.1 hlt))
    have hmlog : 52 ≤ m.log2 := (Nat.le_log2 (by omega)).2 hnormal
    have hnlog : n.log2 ≤ 52 := log2_le_of_lt hn.1
    simp only [totalExponent]
    omega
  · exact totalExponent_mono hle e

theorem aligned_le_of_notAbove {m n : Nat} {d e : Int} (hn : Canonical n e)
    (hm : Canonical m d) (h : NotAbove n e m d) : aligned n e (min d e) ≤ aligned m d (min d e) := by
  change n <<< (e - min d e).toNat ≤ m <<< (d - min d e).toNat
  rcases h with hlt | ⟨rfl, hle⟩
  · -- A larger exponent is not the least, so `m` has all its digits and twice it exceeds `n`.
    have hnormal : 2 ^ 52 ≤ m := hm.2.2.resolve_right (Int.ne_of_gt (Int.lt_of_le_of_lt hn.2.1 hlt))
    have hshift : (e - min d e).toNat = 0 := by omega
    obtain ⟨k, hk⟩ : ∃ k, (d - min d e).toNat = k + 1 := ⟨(d - e).toNat - 1, by omega⟩
    have htwo : 0 < 2 ^ k := Nat.two_pow_pos k
    rw [hshift, hk, Nat.shiftLeft_eq, Nat.shiftLeft_eq, Nat.pow_zero, Nat.mul_one]
    calc n ≤ 2 ^ 52 * 2 := Nat.le_of_lt hn.1
      _ ≤ m * 2 ^ (k + 1) := Nat.mul_le_mul hnormal (by rw [Nat.pow_succ]; omega)
  · rw [Nat.shiftLeft_eq, Nat.shiftLeft_eq]
    exact Nat.mul_le_mul_right _ hle

theorem isRounding_sub {m n : Nat} {d e : Int} (hm : 0 < m) (hn : 0 < n) (hcm : Canonical m d)
    (hcn : Canonical n e) (h : NotAbove n e m d) :
    let u := add .binary64 (.finite .positive m d hm) (.finite .negative n e hn)
    u = .zero .positive ∨ ∃ place ≤ totalExponent m d, IsRounding place .positive u := by
  have hle := aligned_le_of_notAbove hcn hcm h
  have hplace := totalExponent_mono
    (Nat.sub_le (aligned m d (min d e)) (aligned n e (min d e))) (min d e)
  rw [totalExponent_aligned hm (Int.min_le_left d e)] at hplace
  have hsub : (aligned m d (min d e) : Int) + -(aligned n e (min d e) : Int) =
      ((aligned m d (min d e) - aligned n e (min d e) : Nat) : Int) := by omega
  have hadd : add .binary64 (.finite .positive m d hm) (.finite .negative n e hn) =
      UnpackedFloat.normalize .binary64 (aligned m d (min d e) - aligned n e (min d e) : Nat)
        (min d e) .positive :=
    congrArg (UnpackedFloat.normalize .binary64 · (min d e) .positive) hsub
  rw [hadd]
  rcases normalize_natCast (aligned m d (min d e) - aligned n e (min d e)) (min d e) with
    hzero | hround
  · exact .inl hzero
  · exact .inr ⟨_, hplace, hround⟩

end ProviderScout.Double
